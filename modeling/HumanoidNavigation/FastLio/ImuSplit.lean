import HumanoidNavigation.FastLio.System

/-!
# Where `sync_packages` splits the IMU buffer

A call of `sync_packages` that hands on a group moves the front of `imu_buffer` into it, up to the
end of the scan. `takeImu` is its loop, which compares the stamp of the message before with the end
of the scan, and then that of the front. The messages leave the buffer in the order in which they
have arrived, so those of the groups and the rest of the buffer are all that was received, but for
the ones that the leak guard of `imu_cbk` has dropped (`ImuWorld`).
-/

namespace FastLio

open Transition CppFloat

variable {F : Type} [CppFloat F] {cfg : Config F} {s : Lio F} {x y imuTime lidarEndTime : F}
  {msg : Imu F} {msgs : List (Imu F)}

/-- What is documented of the comparison of two `double`s, if one of them is the time of a stamp,
which is a number. -/
structure StampOrder (F : Type) [CppFloat F] : Prop where
  asymm : ∀ (stamp : Ros.Stamp) (x : F), lt x (getTimeSec stamp) = true →
    lt (getTimeSec stamp) x = false
  trans : ∀ (stamp : Ros.Stamp) (x y : F), lt x (getTimeSec stamp) = false →
    lt (getTimeSec stamp) y = false → lt x y = false

/-- The messages are sorted by their times. -/
def ImuSorted (msgs : List (Imu F)) : Prop :=
  msgs.Pairwise fun a b => lt (getTimeSec b.stamp : F) (getTimeSec a.stamp) = false

namespace Lio

/-! ### The loop -/

/-- The loop splits the buffer. -/
lemma takeImu_append (lidarEndTime imuTime : F) (msgs : List (Imu F)) :
    (takeImu lidarEndTime imuTime msgs).1 ++ (takeImu lidarEndTime imuTime msgs).2 = msgs := by
  induction msgs generalizing imuTime with
  | nil => rfl
  | cons msg rest ih =>
    simp only [takeImu]
    split_ifs with hguard hbreak
    · rfl
    · exact congrArg (msg :: ·) (ih _)
    · rfl

/-- What it takes is not after the end of the scan. -/
lemma lt_of_mem_takeImu (h : msg ∈ (takeImu lidarEndTime imuTime msgs).1) :
    lt lidarEndTime (getTimeSec msg.stamp) = false := by
  induction msgs generalizing imuTime with
  | nil => cases h
  | cons front rest ih =>
    simp only [takeImu] at h
    split_ifs at h with hguard hbreak
    · cases h
    · rcases List.mem_cons.mp h with rfl | h
      · exact Bool.eq_false_iff.mpr hbreak
      · exact ih h
    · cases h

/-- What it leaves is not before the end of the scan. The loop variable is the time of a message
that is not after those that are left: the front at first, then the message taken last. -/
lemma lt_of_mem_takeImu_rest (horder : StampOrder F) (hsorted : ImuSorted msgs)
    {stamp : Ros.Stamp}
    (hle : ∀ msg ∈ msgs, lt (getTimeSec msg.stamp : F) (getTimeSec stamp) = false)
    (h : msg ∈ (takeImu lidarEndTime (getTimeSec stamp) msgs).2) :
    lt (getTimeSec msg.stamp) lidarEndTime = false := by
  induction msgs generalizing stamp with
  | nil => cases h
  | cons front rest ih =>
    obtain ⟨hfront, hrest⟩ := List.pairwise_cons.mp hsorted
    simp only [takeImu] at h
    split_ifs at h with hguard hbreak
    · have hend := horder.asymm _ _ hbreak
      rcases List.mem_cons.mp h with rfl | h
      · exact hend
      · exact horder.trans _ _ _ (hfront _ h) hend
    · exact ih hrest hfront h
    · exact horder.trans _ _ _ (hle _ h) (Bool.eq_false_iff.mpr hguard)

/-! ### One call -/

variable {lidar : Entry (PointCloudXYZI F)} {time : Entry F}

lemma imuBuffer_stage (s : Lio F) (lidar : Entry (PointCloudXYZI F)) (time : Entry F) :
    (s.stage lidar time).imuBuffer = s.imuBuffer := by
  obtain ⟨num, endTime, mean, hend⟩ := s.scanEnd_eq lidar.value time.value
  simp only [stage, hend]
  split_ifs <;> rfl

/-- What a call that hands on a group does with the IMU messages. -/
structure SplitsImu (s t : Lio F) : Prop where
  append : t.measures.imu ++ t.imuBuffer = s.imuBuffer
  taken : ∀ msg ∈ t.measures.imu, lt t.lidarEndTime (getTimeSec msg.stamp) = false
  rest : StampOrder F → ImuSorted s.imuBuffer →
    ∀ msg ∈ t.imuBuffer, lt (getTimeSec msg.stamp) t.lidarEndTime = false

/-- A call of `sync_packages` changes none of the buffers, or it splits that of the IMU. -/
lemma syncPackages_cases (s : Lio F) :
    (s.syncPackages.2 = false ∧ s.syncPackages.1.imuBuffer = s.imuBuffer ∧
        s.syncPackages.1.lidarBuffer = s.lidarBuffer ∧
        s.syncPackages.1.timeBuffer = s.timeBuffer) ∨
      s.syncPackages.2 = true ∧ s.SplitsImu s.syncPackages.1 := by
  simp only [syncPackages]
  split
  · next lidar ls time ts imu imus hl ht hi =>
    have hstaged := s.staged_stage lidar time
    have himu := s.imuBuffer_stage lidar time
    cases hreached : lt (s.stage lidar time).lastTimestampImu (s.stage lidar time).lidarEndTime with
    | true => exact Or.inl ⟨rfl, himu, hstaged.lidarBuffer, hstaged.timeBuffer⟩
    | false =>
      refine Or.inr ⟨rfl, ?_, fun msg hmsg => ?_, fun horder hsorted msg hmsg => ?_⟩
      · exact (takeImu_append _ _ _).trans himu
      · exact lt_of_mem_takeImu hmsg
      · replace hmsg : msg ∈ (takeImu (s.stage lidar time).lidarEndTime (getTimeSec imu.stamp)
          (s.stage lidar time).imuBuffer).2 := hmsg
        rw [himu, hi] at hmsg
        rw [hi] at hsorted
        refine lt_of_mem_takeImu_rest horder hsorted (fun msg hmsg => ?_) hmsg
        rcases List.mem_cons.mp hmsg with rfl | hmsg
        · cases h : lt (getTimeSec msg.stamp : F) (getTimeSec msg.stamp) with
          | true => exact absurd (horder.asymm _ _ h) (by simp [h])
          | false => rfl
        · exact (List.pairwise_cons.mp hsorted).1 _ hmsg
  · exact Or.inl ⟨rfl, rfl, rfl, rfl⟩

end Lio

/-! ### Runs -/

/-- What has become of an IMU message: a group has taken it, the leak guard has evicted it, or the
buffer holds it. -/
inductive Fate where
  | taken
  | evicted
  | held
  deriving DecidableEq

/-- The node with the IMU messages that it has received, on the clock of the LiDAR, and those that
have left the buffer. A loop-back, which clears the buffer, is not recorded. -/
structure ImuWorld (F : Type) where
  world : World F
  received : List (Imu F)
  left : List (Imu F × Fate)
  deriving DecidableEq

namespace ImuWorld

def init : ImuWorld F := ⟨.init, [], []⟩

/-- `imu_buffer` before the leak guard looks at it. -/
def pushed (cfg : Config F) (s : Lio F) (msg : Imu F) : List (Imu F) :=
  let msg := { msg with stamp := s.imuStamp cfg msg }
  (if lt (getTimeSec msg.stamp) s.lastTimestampImu then [] else s.imuBuffer) ++ [msg]

def step (cfg : Config F) (w : ImuWorld F) (e : Event F) : Option (ImuWorld F) :=
  (w.world.step cfg e).map fun t =>
    match e with
    | .imu msg =>
      let buffer := pushed cfg w.world.lio msg
      { world := t
        received := w.received ++ [{ msg with stamp := w.world.lio.imuStamp cfg msg }]
        left := w.left ++ (buffer.take (buffer.length - 2000)).map fun m => (m, .evicted) }
    | .timer =>
      if w.world.lio.syncPackages.2 then
        { w with world := t, left := w.left ++ t.lio.measures.imu.map fun m => (m, .taken) }
      else { w with world := t }
    | .pointCloud2 _ | .livoxPacket _ => { w with world := t }

/-- The event is no IMU message with a time before that of the previous one. -/
def NoLoopBack (cfg : Config F) (w : ImuWorld F) : Event F → Prop
  | .imu msg => lt (getTimeSec (w.world.lio.imuStamp cfg msg)) w.world.lio.lastTimestampImu = false
  | .pointCloud2 _ | .livoxPacket _ | .timer => True

/-- The IMU messages in the order of their arrival, with their fates. -/
def stream (w : ImuWorld F) : List (Imu F × Fate) :=
  w.left ++ w.world.lio.imuBuffer.map fun m => (m, .held)

/-- The messages of the groups and of the buffer are those that were received, without the ones
that the leak guard evicted. -/
structure Conserved (w : ImuWorld F) : Prop where
  received : w.received = w.stream.map Prod.fst
  groups : (w.world.groups.flatMap MeasureGroup.imu) ++ w.world.lio.imuBuffer =
    (w.stream.filter fun p => p.2 ≠ .evicted).map Prod.fst

variable {w w' : ImuWorld F} {e : Event F} {es : List (Event F)}

omit [CppFloat F] in
lemma map_fst_tag (msgs : List (Imu F)) (fate : Fate) :
    (msgs.map fun m => (m, fate)).map Prod.fst = msgs := by
  simp [Function.comp_def]

omit [CppFloat F] in
/-- Messages with a fate, without those that are evicted. -/
lemma map_fst_filter_tag (msgs : List (Imu F)) (fate : Fate) :
    ((msgs.map fun m => (m, fate)).filter fun p => p.2 ≠ .evicted).map Prod.fst =
      if fate = .evicted then [] else msgs := by
  split_ifs with hfate
  · simp [hfate]
  · rw [List.filter_eq_self.mpr (by simp [hfate]), map_fst_tag]

omit [CppFloat F] in
lemma conserved_iff : w.Conserved ↔ w.received = w.left.map Prod.fst ++ w.world.lio.imuBuffer ∧
    (w.world.groups.flatMap MeasureGroup.imu) =
      (w.left.filter fun p => p.2 ≠ .evicted).map Prod.fst := by
  have hreceived : w.stream.map Prod.fst = w.left.map Prod.fst ++ w.world.lio.imuBuffer := by
    rw [stream, List.map_append, map_fst_tag]
  have hgroups : (w.stream.filter fun p => p.2 ≠ .evicted).map Prod.fst =
      (w.left.filter fun p => p.2 ≠ .evicted).map Prod.fst ++ w.world.lio.imuBuffer := by
    rw [stream, List.filter_append, List.map_append, map_fst_filter_tag, if_neg (by decide)]
  constructor
  · rintro ⟨h₁, h₂⟩
    rw [hgroups] at h₂
    exact ⟨h₁.trans hreceived, List.append_cancel_right h₂⟩
  · rintro ⟨h₁, h₂⟩
    exact ⟨h₁.trans hreceived.symm, by rw [hgroups, h₂]⟩

/-- A LiDAR callback leaves the IMU buffer. -/
lemma imuBuffer_standardPclCbk (s : Lio F) (msg : PointCloud2) :
    (s.standardPclCbk cfg msg).imuBuffer = s.imuBuffer := by
  cases hglitch : s.glitch (getTimeSec msg.stamp) with
  | false => exact (Lio.received_standardPclCbk cfg hglitch).imuBuffer
  | true => rw [Lio.standardPclCbk_of_glitch hglitch]

lemma imuBuffer_livoxPclCbk (s : Lio F) (packet : CustomMsg F) :
    (s.livoxPclCbk cfg packet).imuBuffer = s.imuBuffer := by
  cases hcomplete : s.completes cfg packet with
  | false => rw [Lio.livoxPclCbk_of_not_completes hcomplete]
  | true => exact (Lio.received_livoxPclCbk hcomplete).imuBuffer

omit [CppFloat F] in
/-- A step that leaves the IMU messages. -/
lemma Conserved.congr {t : World F} (h : w.Conserved)
    (hbuffer : t.lio.imuBuffer = w.world.lio.imuBuffer) (hgroups : t.groups = w.world.groups) :
    Conserved { w with world := t } := by
  obtain ⟨h₁, h₂⟩ := conserved_iff.mp h
  exact conserved_iff.mpr ⟨hbuffer ▸ h₁, hgroups ▸ h₂⟩

/-- A message enters the buffer, and the leak guard may drop the oldest ones. -/
lemma Conserved.imu {msg : Imu F} (h : w.Conserved) (hback : w.NoLoopBack cfg (.imu msg))
    (he : w.step cfg (.imu msg) = some w') : w'.Conserved := by
  obtain ⟨t, ht, rfl⟩ := Option.map_eq_some_iff.mp he
  obtain rfl := Option.some.inj ht
  obtain ⟨hreceived, hgroups⟩ := conserved_iff.mp h
  have hpushed : pushed cfg w.world.lio msg = w.world.lio.imuBuffer ++
      [{ msg with stamp := w.world.lio.imuStamp cfg msg }] := by
    rw [pushed, if_neg (by rw [show lt _ _ = false from hback]; simp)]
  have hbuffer : (w.world.lio.imuCbk cfg msg).imuBuffer =
      (pushed cfg w.world.lio msg).drop ((pushed cfg w.world.lio msg).length - 2000) := by
    simp only [Lio.imuCbk, pushed]
  refine conserved_iff.mpr ⟨?_, ?_⟩
  · show w.received ++ _ = (w.left ++ _).map Prod.fst ++ (w.world.lio.imuCbk cfg msg).imuBuffer
    rw [hbuffer, List.map_append, map_fst_tag, List.append_assoc, List.take_append_drop, hpushed,
      hreceived, List.append_assoc]
  · show w.world.groups.flatMap MeasureGroup.imu = _
    rw [hgroups, List.filter_append, List.map_append, map_fst_filter_tag, if_pos rfl,
      List.append_nil]

lemma timer_of_not_ready {w : World F} (h : w.lio.syncPackages.2 = false) :
    w.timer = { w with lio := w.lio.syncPackages.1 } := by
  simp only [World.timer]
  split
  · next hsync => rw [hsync]
  · next hsync => simp [hsync] at h

lemma timer_of_ready {w : World F} (h : w.lio.syncPackages.2 = true) :
    w.timer.lio = w.lio.syncPackages.1 ∧
      w.timer.groups = w.groups ++ [w.lio.syncPackages.1.measures] := by
  simp only [World.timer]
  split
  · next hsync => simp [hsync] at h
  · next hsync => simp [hsync]

/-- A group takes the front of the buffer, or nothing changes. -/
lemma Conserved.timer (h : w.Conserved) (he : w.step cfg .timer = some w') : w'.Conserved := by
  obtain ⟨t, ht, rfl⟩ := Option.map_eq_some_iff.mp he
  obtain rfl := Option.some.inj ht
  rcases w.world.lio.syncPackages_cases with ⟨hfalse, hbuffer, -⟩ | ⟨htrue, hsplits⟩
  · simp only [hfalse, Bool.false_eq_true, if_false]
    rw [timer_of_not_ready hfalse]
    exact h.congr hbuffer rfl
  · obtain ⟨hlio, hgroup⟩ := timer_of_ready htrue
    obtain ⟨hreceived, hgroups⟩ := conserved_iff.mp h
    simp only [htrue, if_true]
    refine conserved_iff.mpr ⟨?_, ?_⟩
    · simp only [hlio]
      rw [List.map_append, map_fst_tag, List.append_assoc, hsplits.append, hreceived]
    · simp only [hlio, hgroup]
      rw [List.flatMap_append, List.flatMap_singleton, hgroups, List.filter_append,
        List.map_append, map_fst_filter_tag, if_neg (by decide)]

lemma Conserved.step (h : w.Conserved) (hback : w.NoLoopBack cfg e)
    (he : w.step cfg e = some w') : w'.Conserved := by
  cases e with
  | pointCloud2 msg =>
    obtain ⟨t, ht, rfl⟩ := Option.map_eq_some_iff.mp he
    simp only [World.step, Option.ite_none_left_eq_some, Option.some.injEq] at ht
    obtain ⟨-, rfl⟩ := ht
    exact h.congr (imuBuffer_standardPclCbk _ _) rfl
  | livoxPacket packet =>
    obtain ⟨t, ht, rfl⟩ := Option.map_eq_some_iff.mp he
    simp only [World.step, Option.ite_none_right_eq_some, Option.some.injEq] at ht
    obtain ⟨-, rfl⟩ := ht
    exact h.congr (imuBuffer_livoxPclCbk _ _) rfl
  | imu msg => exact h.imu hback he
  | timer => exact h.timer he

/-- In every state, `sync_packages` either changes none of the buffers, or it splits `imu_buffer`
at the end of the scan: what the group gets and what is left make up the old buffer, nothing in the
group is after the end and, if the buffer was sorted, nothing that is left is before it. In every
run without an IMU loop-back, the messages of the groups and of the buffer are those that were
received, in their order, without the ones that the leak guard has evicted. -/
theorem imu_conserved (horder : StampOrder F) :
    (∀ s : Lio F, s.syncPackages.2 = true → ImuSorted s.imuBuffer →
      s.syncPackages.1.measures.imu ++ s.syncPackages.1.imuBuffer = s.imuBuffer ∧
      (∀ msg ∈ s.syncPackages.1.measures.imu,
        lt s.syncPackages.1.lidarEndTime (getTimeSec msg.stamp) = false) ∧
      ∀ msg ∈ s.syncPackages.1.imuBuffer,
        lt (getTimeSec msg.stamp) s.syncPackages.1.lidarEndTime = false) ∧
    (∀ s : Lio F, s.syncPackages.2 = false → s.syncPackages.1.imuBuffer = s.imuBuffer ∧
      s.syncPackages.1.lidarBuffer = s.lidarBuffer ∧
      s.syncPackages.1.timeBuffer = s.timeBuffer) ∧
    ∀ (cfg : Config F) (es : List (Event F)) (w : ImuWorld F), Run (step cfg) init es w →
      Always (step cfg) init (NoLoopBack cfg) es → w.Conserved := by
  refine ⟨fun s htrue hsorted => ?_, fun s hfalse => ?_, fun cfg es w hrun hback => ?_⟩
  · rcases s.syncPackages_cases with ⟨hfalse, -⟩ | ⟨-, hsplits⟩
    · cases hfalse.symm.trans htrue
    · exact ⟨hsplits.append, hsplits.taken, hsplits.rest horder hsorted⟩
  · rcases s.syncPackages_cases with ⟨-, hbuffers⟩ | ⟨htrue, -⟩
    · exact hbuffers
    · cases hfalse.symm.trans htrue
  · refine hrun.invariant (I := fun _ w => w.Conserved) ⟨rfl, rfl⟩ ?_ hback
    exact fun _ _ _ _ _ hp h he => h.step hp he

section

attribute [local instance] CppFloat.exact

instance (cfg : Config ℚ) (w : ImuWorld ℚ) : (e : Event ℚ) → Decidable (w.NoLoopBack cfg e)
  | .imu _ => inferInstanceAs (Decidable (_ = false))
  | .pointCloud2 _ | .livoxPacket _ | .timer => inferInstanceAs (Decidable True)

lemma stampOrder_exact : StampOrder ℚ where
  asymm stamp x h := by
    simp only [exact_lt, decide_eq_true_eq, decide_eq_false_iff_not, not_lt] at h ⊢
    exact h.le
  trans stamp x y hx hy := by
    simp only [exact_lt, decide_eq_false_iff_not, not_lt] at hx hy ⊢
    exact hy.trans hx

/-- The message at the end of the scan goes into the group, and the next one stays. -/
theorem imu_conserved_at_end : ∃ w, Run (step (.velodyne fun _ => [])) init
      [.imu (imuAt 9), .imu (imuAt 10), .imu (imuAt 11), .pointCloud2 (cloudAt 10), .timer] w ∧
    w.world.groups.map MeasureGroup.imu = [[imuAt 9, imuAt 10]] ∧
    w.world.lio.imuBuffer = [imuAt 11] ∧ w.Conserved := by
  obtain ⟨w, hw, hgroups, hbuffer⟩ := exists_run (step (.velodyne fun _ => [])) init
    [.imu (imuAt 9), .imu (imuAt 10), .imu (imuAt 11), .pointCloud2 (cloudAt 10), .timer]
    (fun w => w.world.groups.map MeasureGroup.imu = [[imuAt 9, imuAt 10]] ∧
      w.world.lio.imuBuffer = [imuAt 11]) (by decide +kernel)
  refine ⟨w, hw, hgroups, hbuffer, (imu_conserved stampOrder_exact).2.2 _ _ _ hw ?_⟩
  exact always_of_execAlways (by decide +kernel)

end

end ImuWorld
end FastLio
