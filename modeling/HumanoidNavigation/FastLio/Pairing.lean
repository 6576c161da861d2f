import HumanoidNavigation.FastLio.System

/-!
# Clouds and their start times

`lidar_buffer` and `time_buffer` are meant to run in parallel. Every operation treats them alike,
but for the loop-back branch of `process_livox_scan`, which clears only `lidar_buffer`.
`paired_iff_no_clear` shows that this branch decides the matter: the buffers are paired throughout
a run if and only if it never clears a scan.
-/

namespace FastLio

open Transition CppFloat

variable {F : Type} [CppFloat F] {cfg : Config F} {w w' : World F} {e : Event F}
  {es : List (Event F)}

/-- The entries of the two buffers come from the same scans. -/
def Lio.Paired (s : Lio F) : Prop := s.scans = s.times

/-- The cloud of a group and its start time come from the same scan. -/
def MeasureGroup.Matched (g : MeasureGroup F) : Prop := g.lidar.scan = g.lidarBegTime.scan

namespace Lio

variable {s : Lio F}

/-- A packet keeps the buffers paired unless it clears one of them. -/
lemma Paired.livoxPclCbk_iff (h : s.Paired) (packet : CustomMsg F) :
    (s.livoxPclCbk cfg packet).Paired ↔ ¬s.Clears cfg (.livoxPacket packet) := by
  cases hcomplete : s.completes cfg packet with
  | false =>
    rw [livoxPclCbk_of_not_completes hcomplete]
    refine iff_of_true h ?_
    simp [Clears, hcomplete]
  | true =>
    have hreceived := received_livoxPclCbk hcomplete
    rw [Paired, hreceived.scans, hreceived.times, List.append_left_inj]
    cases hback : s.loopBack (s.scanTime packet) with
    | false =>
      refine iff_of_true h ?_
      simp [Clears, hback]
    | true =>
      have hempty : s.times = [] ↔ s.lidarBuffer = [] := by
        rw [← show s.scans = s.times from h]
        exact List.map_eq_nil_iff
      simp only [if_true, Clears, hcomplete, hback, true_and, ne_eq, not_not, ← hempty]
      exact eq_comm

lemma Paired.standardPclCbk (h : s.Paired) (msg : PointCloud2) :
    (s.standardPclCbk cfg msg).Paired := by
  cases hglitch : s.glitch (getTimeSec msg.stamp) with
  | false =>
    have hreceived := received_standardPclCbk cfg hglitch
    rw [Paired, hreceived.scans, hreceived.times, ← show s.scans = s.times from h]
  | true =>
    rw [standardPclCbk_of_glitch hglitch]
    exact h

/-- What is staged under paired buffers is one scan with its own start time. -/
def StagedMatched (s : Lio F) : Prop := s.lidarPushed = true → s.measures.Matched

lemma StagedMatched.stage (h : s.StagedMatched) (hpaired : s.Paired)
    {lidar : Entry (PointCloudXYZI F)} {time : Entry F} (hfront : s.Front lidar time) :
    (s.stage lidar time).measures.Matched := by
  have hstaged := s.staged_stage lidar time
  rw [MeasureGroup.Matched, hstaged.lidar, hstaged.lidarBegTime]
  split_ifs with hpushed
  · exact h hpushed
  · obtain ⟨ls, ts, imu, imus, hl, ht, -⟩ := hfront
    simp only [Paired, scans, times, hl, ht, List.map_cons, List.cons.injEq] at hpaired
    exact hpaired.1

end Lio

/-! ### Runs -/

lemma World.paired_timer (h : w.lio.Paired) : w.timer.lio.Paired := by
  by_cases hfront : ∃ lidar time, w.lio.Front lidar time
  · obtain ⟨lidar, time, hfront⟩ := hfront
    cases hreached : w.lio.reached lidar time with
    | false =>
      have hstaged := w.lio.staged_stage lidar time
      rw [timer_of_not_reached hfront hreached, Lio.Paired, Lio.scans, Lio.times,
        hstaged.lidarBuffer, hstaged.timeBuffer]
      exact h
    | true =>
      obtain ⟨g, -, -, -, -, -, -, hscans, htimes, -⟩ := timer_of_reached hfront hreached
      rw [Lio.Paired, hscans, htimes, ← show w.lio.scans = w.lio.times from h]
  · rw [timer_of_not_front fun lidar time hf => hfront ⟨lidar, time, hf⟩]
    exact h

/-- Only a step that clears unpairs the buffers. -/
lemma World.paired_step_iff (h : w.lio.Paired) (he : w.step cfg e = some w') :
    w'.lio.Paired ↔ ¬w.lio.Clears cfg e := by
  cases e with
  | pointCloud2 msg =>
    simp only [step, Option.ite_none_left_eq_some, Option.some.injEq] at he
    obtain ⟨-, rfl⟩ := he
    exact iff_of_true (h.standardPclCbk msg) id
  | livoxPacket packet =>
    simp only [step, Option.ite_none_right_eq_some, Option.some.injEq] at he
    obtain ⟨-, rfl⟩ := he
    exact h.livoxPclCbk_iff packet
  | imu msg =>
    obtain rfl := Option.some.inj he
    exact iff_of_true h id
  | timer =>
    obtain rfl := Option.some.inj he
    exact iff_of_true (paired_timer h) id

/-- The staged scan and the groups are matched. -/
structure World.Matched (w : World F) : Prop where
  staged : w.lio.StagedMatched
  groups : ∀ g ∈ w.groups, g.Matched

lemma World.Matched.timer (h : w.Matched) (hpaired : w.lio.Paired) : w.timer.Matched := by
  by_cases hfront : ∃ lidar time, w.lio.Front lidar time
  · obtain ⟨lidar, time, hfront⟩ := hfront
    have hstage := h.staged.stage hpaired hfront
    cases hreached : w.lio.reached lidar time with
    | false =>
      rw [timer_of_not_reached hfront hreached]
      exact ⟨fun _ => hstage, h.groups⟩
    | true =>
      obtain ⟨g, hg, hbeg, hgroups, -, -, -, -, -, hpushed, -⟩ :=
        timer_of_reached hfront hreached
      refine ⟨fun hp => ?_, fun g' hg' => ?_⟩
      · rw [hpushed] at hp
        cases hp
      · rw [hgroups] at hg'
        rcases List.mem_append.mp hg' with hg' | hg'
        · exact h.groups g' hg'
        · rw [List.mem_singleton.mp hg', MeasureGroup.Matched, hg, hbeg]
          exact hstage
  · rw [timer_of_not_front fun lidar time hf => hfront ⟨lidar, time, hf⟩]
    exact h

lemma World.Matched.step (h : w.Matched) (hpaired : w.lio.Paired) (he : w.step cfg e = some w') :
    w'.Matched := by
  cases e with
  | pointCloud2 msg =>
    simp only [World.step, Option.ite_none_left_eq_some, Option.some.injEq] at he
    obtain ⟨-, rfl⟩ := he
    obtain ⟨hpushed, hmeasures⟩ := w.lio.standardPclCbk_staged cfg msg
    refine ⟨fun hp => ?_, h.groups⟩
    simp only [received, hpushed, hmeasures] at hp ⊢
    exact h.staged hp
  | livoxPacket packet =>
    simp only [World.step, Option.ite_none_right_eq_some, Option.some.injEq] at he
    obtain ⟨-, rfl⟩ := he
    obtain ⟨hpushed, hmeasures⟩ := w.lio.livoxPclCbk_staged cfg packet
    refine ⟨fun hp => ?_, h.groups⟩
    simp only [received, hpushed, hmeasures] at hp ⊢
    exact h.staged hp
  | imu msg =>
    obtain rfl := Option.some.inj he
    exact ⟨h.staged, h.groups⟩
  | timer =>
    obtain rfl := Option.some.inj he
    exact h.timer hpaired

/-- In every run, the buffers are paired at all times and every group that is handed on consists
of a cloud and its own start time, if and only if no step clears scans out of `lidar_buffer`. -/
theorem paired_iff_no_clear (hrun : Run (World.step cfg) .init es w) :
    (∀ pre post s, es = pre ++ post → Run (World.step cfg) .init pre s →
      s.lio.Paired ∧ ∀ g ∈ s.groups, g.Matched) ↔
    Always (World.step cfg) .init (fun s e => ¬s.lio.Clears cfg e) es := by
  have hpaired : (∀ pre post s, es = pre ++ post → Run (World.step cfg) .init pre s →
      s.lio.Paired) ↔ Always (World.step cfg) .init (fun s e => ¬s.lio.Clears cfg e) es :=
    forall_prefix_iff_always (I := fun _ => True) trivial (fun _ _ _ _ _ => trivial) rfl
      (fun _ _ _ _ h he => World.paired_step_iff h he) hrun
  rw [← hpaired]
  constructor
  · exact fun h pre post s hes hs => (h pre post s hes hs).1
  · intro h pre post s hes hs
    refine ⟨h pre post s hes hs, ?_⟩
    have hmatched : s.Matched := by
      induction hs generalizing post with
      | nil =>
        refine ⟨fun hp => ?_, fun g hg => ?_⟩
        · simp [World.init, Lio.init] at hp
        · simp [World.init] at hg
      | @snoc pre s t e hs he ih =>
        rw [List.append_assoc] at hes
        exact (ih _ hes).step (h pre _ s hes hs) he
    exact hmatched.groups

section

attribute [local instance] CppFloat.exact

/-- Two scans in order, and the group of the first one. -/
theorem paired_iff_no_clear_ordered : ∃ w, Run (World.step (.mid360 fun _ => [])) .init
      [.livoxPacket (wholeScan 10), .livoxPacket (wholeScan 11), .imu (imuAt 12), .timer] w ∧
    ((∀ pre post s, [.livoxPacket (wholeScan 10), .livoxPacket (wholeScan 11), .imu (imuAt 12),
          .timer] = pre ++ post → Run (World.step (.mid360 fun _ => [])) .init pre s →
        s.lio.Paired ∧ ∀ g ∈ s.groups, g.Matched) ↔
      Always (World.step (.mid360 fun _ => [])) .init
        (fun s e => ¬s.lio.Clears (.mid360 fun _ => []) e)
        [.livoxPacket (wholeScan 10), .livoxPacket (wholeScan 11), .imu (imuAt 12), .timer]) := by
  obtain ⟨w, hw, -⟩ := exists_run (World.step (.mid360 fun _ => [])) .init
    [.livoxPacket (wholeScan 10), .livoxPacket (wholeScan 11), .imu (imuAt 12), .timer]
    (fun w => w.popped = [1]) (by decide +kernel)
  exact ⟨w, hw, paired_iff_no_clear hw⟩

/-- The second scan is one second earlier than the first one, which is still in the buffer: the
group pairs the cloud of the second scan with the start time of the first one. -/
theorem regression_unpairs : ∃ w, Run (World.step (.mid360 fun _ => [])) .init
      [.livoxPacket (wholeScan 10), .livoxPacket (wholeScan 9), .imu (imuAt 12), .timer] w ∧
    ¬∀ g ∈ w.groups, g.Matched := by
  obtain ⟨w, hw, g, hg, hlidar, hbeg⟩ := exists_run (World.step (.mid360 fun _ => [])) .init
    [.livoxPacket (wholeScan 10), .livoxPacket (wholeScan 9), .imu (imuAt 12), .timer]
    (fun w => ∃ g ∈ w.groups, g.lidar.scan = 2 ∧ g.lidarBegTime = ⟨1, 10⟩) (by decide +kernel)
  refine ⟨w, hw, fun h => ?_⟩
  have hmatched : g.lidar.scan = g.lidarBegTime.scan := h g hg
  rw [hlidar, hbeg] at hmatched
  cases hmatched

end

end FastLio
