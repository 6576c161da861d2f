import HumanoidNavigation.Gateway.History
import Mathlib.Order.Interval.Set.UnorderedInterval

/-!
# The slew limit over any window of a run

A single enabled tick moves each component of the velocity towards its clamped target, by at most
the rate times the clamped interval. `tick_slewed` says so for one tick, disabled ones included.
By induction over the ticks of a run, `emitted_slew` bounds the velocity of any tick by that of
any earlier one, across stops and restarts.
-/

namespace Gateway

open Transition

/-! ### One clamp -/

/-- A clamp to a window around the previous value moves towards the target, and not further than
the window. -/
lemma slew_mem_uIcc {target last d : ℚ} (hd : 0 ≤ d) :
    ∃ q, finiteClamp (.fin target) (.fin last - .fin d) (.fin last + .fin d) = .fin q ∧
      q ∈ Set.uIcc last target ∧ q ≤ last + d ∧ |q| ≤ |last| + d := by
  rw [ExtFloat.fin_sub_fin, ExtFloat.fin_add_fin]
  have hlow : last - d ≤ max (last - d) (min (last + d) target) := le_max_left _ _
  have hhigh : max (last - d) (min (last + d) target) ≤ last + d :=
    max_le (by linarith) (min_le_left _ _)
  refine ⟨_, finiteClamp_fin _ _ _, ?_, hhigh, ?_⟩
  · rcases le_total last target with h | h
    · rw [Set.uIcc_of_le h]
      refine ⟨le_max_of_le_right (le_min (by linarith) h), ?_⟩
      exact max_le (by linarith) (min_le_right _ _)
    · rw [Set.uIcc_of_ge h, min_eq_right (by linarith)]
      exact ⟨le_max_right _ _, max_le (by linarith) h⟩
  · have hdist : |max (last - d) (min (last + d) target) - last| ≤ d :=
      abs_sub_le_iff.mpr ⟨by linarith, by linarith⟩
    have htri := abs_add_le last (max (last - d) (min (last + d) target) - last)
    rw [add_sub_cancel] at htri
    linarith

/-! ### One tick -/

namespace Bridge

variable {b : Bridge} {armed : Bool} {now : ℚ}

/-- `target_vx` and `target_wz` of a tick, after all clamps; zero unless the tick is enabled. -/
def clampedTarget (b : Bridge) (armed : Bool) (now : ℚ) : Velocity :=
  let c := { b with lastTick := now }.observeToken armed now
  match c.latest, c.enabled armed now with
  | some msg, true => (target msg c.motionSince now).1
  | _, _ => 0

@[simp] lemma observeToken_lastTick : (b.observeToken armed now).lastTick = b.lastTick := by
  simp only [observeToken]
  split_ifs <;> rfl

@[simp] lemma tick_lastTick : (b.tick armed now).1.lastTick = now := by
  simp [tick]

/-- A tick emits zero with target zero, or it emits its target limited by the interval. -/
lemma tick_put_eq (b : Bridge) (armed : Bool) (now : ℚ) :
    ((b.tick armed now).2.put = 0 ∧ b.clampedTarget armed now = 0) ∨
    (b.tick armed now).2.put = ({ b with lastTick := now }.observeToken armed now).slew
      (b.clampedTarget armed now) (max 0 (min (1 / 4) (now - b.lastTick))) := by
  simp only [tick, clampedTarget, command]
  generalize { b with lastTick := now }.observeToken armed now = c
  cases c.latest with
  | none => exact Or.inl ⟨rfl, rfl⟩
  | some msg =>
    cases c.enabled armed now with
    | false => exact Or.inl ⟨rfl, rfl⟩
    | true => exact Or.inr rfl

lemma clampedTarget_withinLimits (b : Bridge) (armed : Bool) (now : ℚ) :
    (b.clampedTarget armed now).WithinLimits := by
  simp only [clampedTarget]
  split
  · exact target_withinLimits _ _ _
  · exact Velocity.zero_withinLimits

/-- What a tick emits, `lx` and `lz` being the velocity of the tick before. -/
def Slewed (target : Velocity) (lx lz elapsed : ℚ) (put : Velocity) : Prop :=
  ∃ tx tz vx wz : ℚ, target = ⟨.fin tx, .fin tz⟩ ∧ put = ⟨.fin vx, .fin wz⟩ ∧
    vx ∈ Set.uIcc lx tx ∧ wz ∈ Set.uIcc lz tz ∧
    vx ≤ lx + maxDvxPerS * elapsed ∧ |wz| ≤ |lz| + maxDwzPerS * elapsed

variable (armed) in
/-- Every tick moves both components towards the clamped target, and not faster than the
maximal rates. -/
lemma tick_slewed {lx lz : ℚ} (hlast : b.last = ⟨.fin lx, .fin lz⟩) (hlx : 0 ≤ lx)
    (hnow : b.lastTick ≤ now) :
    Slewed (b.clampedTarget armed now) lx lz (now - b.lastTick) (b.tick armed now).2.put := by
  have helapsed : 0 ≤ now - b.lastTick := sub_nonneg.mpr hnow
  rcases tick_put_eq b armed now with ⟨hput, htarget⟩ | hput
  · refine ⟨0, 0, 0, 0, htarget, hput, Set.right_mem_uIcc, Set.right_mem_uIcc, ?_, ?_⟩
    · exact add_nonneg hlx (mul_nonneg (by norm_num [maxDvxPerS]) helapsed)
    · rw [abs_zero]
      exact add_nonneg (abs_nonneg _) (mul_nonneg (by norm_num [maxDwzPerS]) helapsed)
  · obtain ⟨tx, tz, htarget, -⟩ := b.clampedTarget_withinLimits armed now
    have hdt : 0 ≤ max 0 (min (1 / 4) (now - b.lastTick)) := le_max_left _ _
    have hdt' : max 0 (min (1 / 4) (now - b.lastTick)) ≤ now - b.lastTick :=
      max_le helapsed (min_le_right _ _)
    generalize max 0 (min (1 / 4) (now - b.lastTick)) = dt at hput hdt hdt'
    have hrate : maxDvxPerS * dt ≤ maxDvxPerS * (now - b.lastTick) :=
      mul_le_mul_of_nonneg_left hdt' (by norm_num [maxDvxPerS])
    have hrate' : maxDwzPerS * dt ≤ maxDwzPerS * (now - b.lastTick) :=
      mul_le_mul_of_nonneg_left hdt' (by norm_num [maxDwzPerS])
    obtain ⟨vx, hvx, hvxmem, hvxle, -⟩ := @slew_mem_uIcc tx lx (maxDvxPerS * dt)
      (mul_nonneg (by norm_num [maxDvxPerS]) hdt)
    obtain ⟨wz, hwz, hwzmem, -, hwzle⟩ := @slew_mem_uIcc tz lz (maxDwzPerS * dt)
      (mul_nonneg (by norm_num [maxDwzPerS]) hdt)
    refine ⟨tx, tz, vx, wz, htarget, ?_, hvxmem, hwzmem, by linarith, by linarith⟩
    obtain ⟨hlastx, hlastz⟩ :
        ({ b with lastTick := now }.observeToken armed now).lastVx = .fin lx ∧
        ({ b with lastTick := now }.observeToken armed now).lastWz = .fin lz := by
      have hobs : ({ b with lastTick := now }.observeToken armed now).last = b.last :=
        observeToken_last
      rw [hlast] at hobs
      simpa [last] using hobs
    rw [hput, htarget]
    simp only [slew, hlastx, hlastz, hvx, hwz]

end Bridge

/-! ### Runs -/

variable {token₀ : Bool} {t₀ : ℚ} {es fs : List Event} {u w : World} {now : ℚ}

/-- The last tick is never later than the clock. -/
lemma lastTick_le_clock (hrun : Run World.step u es w) (hu : u.bridge.lastTick ≤ u.clock) :
    w.bridge.lastTick ≤ w.clock := by
  refine hrun.invariant_state (I := fun s => s.bridge.lastTick ≤ s.clock) hu ?_
  intro s e t hs he
  obtain ⟨hclock, rfl⟩ := World.step_eq_some_iff.mp he
  rw [World.apply_clock]
  cases e with
  | tick now => exact le_of_eq Bridge.tick_lastTick
  | command | motionArm | motionStop => exact hs.trans hclock

/-- The velocity `last` respects the maximal rates since it was `⟨vi, wi⟩`, `elapsed` ago. -/
def RateBound (vi wi elapsed : ℚ) (last : Velocity) : Prop :=
  ∃ vx wz : ℚ, last = ⟨.fin vx, .fin wz⟩ ∧ 0 ≤ vx ∧
    vx ≤ vi + maxDvxPerS * elapsed ∧ |wz| ≤ |wi| + maxDwzPerS * elapsed

/-- One more tick keeps the bound. -/
lemma RateBound.tick {vi wi elapsed now : ℚ} {b : Bridge} (h : RateBound vi wi elapsed b.last)
    (armed : Bool) (hnow : b.lastTick ≤ now) :
    RateBound vi wi (elapsed + (now - b.lastTick)) (b.tick armed now).2.put := by
  obtain ⟨lx, lz, hlast, hlx, hvx, hwz⟩ := h
  obtain ⟨tx, tz, vx, wz, htarget, hput, hmem, -, hvx', hwz'⟩ :=
    Bridge.tick_slewed armed hlast hlx hnow
  obtain ⟨tx', tz', htarget', htx, -⟩ := b.clampedTarget_withinLimits armed now
  obtain ⟨rfl, rfl⟩ : tx = tx' ∧ tz = tz' := by simpa [htarget] using htarget'
  -- between two velocities that do not reverse
  have hpos : 0 ≤ vx := (le_min hlx htx).trans hmem.1
  exact ⟨vx, wz, hput, hpos, by linarith, by linarith⟩

/-- The bound holds at the end of every run that follows. -/
lemma rateBound_of_run {vi wi : ℚ} (hrun : Run World.step u es w)
    (hu : u.bridge.lastTick ≤ u.clock) (h : RateBound vi wi 0 u.bridge.last) :
    RateBound vi wi (w.bridge.lastTick - u.bridge.lastTick) w.bridge.last := by
  induction hrun with
  | nil =>
    rw [sub_self]
    exact h
  | @snoc fs s t e hs he ih =>
    obtain ⟨hclock, rfl⟩ := World.step_eq_some_iff.mp he
    cases e with
    | command | motionArm | motionStop => exact ih
    | tick now =>
      have hnow : s.bridge.lastTick ≤ now := (lastTick_le_clock hs hu).trans hclock
      have hbound := ih.tick s.token hnow
      rw [sub_add_sub_cancel'] at hbound
      simpa [World.apply, Bridge.tick_put] using hbound

/-- The velocity `v` was emitted by the latest tick of the history; zero before the first. -/
def PreviouslyEmitted (token₀ : Bool) (t₀ : ℚ) (es : List Event) (v : Velocity) : Prop :=
  Since World.step (.init t₀ token₀) (fun s e _ => ∃ t, e = .tick t ∧ s.emitted t = v)
    (fun _ e => ∀ t, e ≠ .tick t) es ∨ (∀ t, .tick t ∉ es) ∧ v = 0

/-- The node remembers what it emitted last. -/
lemma previouslyEmitted_last (hrun : Run World.step (.init t₀ token₀) es w) :
    PreviouslyEmitted token₀ t₀ es w.bridge.last := by
  induction hrun with
  | nil => exact Or.inr ⟨by simp, rfl⟩
  | @snoc es s t e hs he ih =>
    obtain ⟨-, rfl⟩ := World.step_eq_some_iff.mp he
    simp only [PreviouslyEmitted, since_snoc_iff hs he]
    cases e with
    | tick now => exact Or.inl (Or.inl ⟨now, rfl, Bridge.tick_put⟩)
    | command | motionArm | motionStop =>
      rcases ih with h | ⟨hnone, hzero⟩
      · exact Or.inl (Or.inr ⟨h, by simp⟩)
      · exact Or.inr ⟨by simpa using hnone, hzero⟩

/-- In every run, whatever commands arrive and however the token changes, a tick emits a velocity
of which each component lies between the previously emitted one and the clamped target, and is
bounded in terms of the velocity of every earlier tick. -/
theorem emitted_slew (hrun : Run World.step (.init t₀ token₀) es w) (hnow : w.clock ≤ now) :
    ∃ vx wz px pz tx tz : ℚ, w.emitted now = ⟨.fin vx, .fin wz⟩ ∧
      PreviouslyEmitted token₀ t₀ es ⟨.fin px, .fin pz⟩ ∧
      w.bridge.clampedTarget w.token now = ⟨.fin tx, .fin tz⟩ ∧
      vx ∈ Set.uIcc px tx ∧ wz ∈ Set.uIcc pz tz ∧
      ∀ pre ti mid u, es = pre ++ .tick ti :: mid → Run World.step (.init t₀ token₀) pre u →
        ∃ vi wi : ℚ, u.emitted ti = ⟨.fin vi, .fin wi⟩ ∧
          vx ≤ vi + maxDvxPerS * (now - ti) ∧ |wz| ≤ |wi| + maxDwzPerS * (now - ti) := by
  have hclock : w.bridge.lastTick ≤ w.clock := lastTick_le_clock hrun le_rfl
  obtain ⟨px, pz, hlast, hpx, -⟩ := (tracks_of_run hrun).limits
  obtain ⟨tx, tz, vx, wz, htarget, hput, hvx, hwz, -⟩ :=
    Bridge.tick_slewed w.token hlast hpx (hclock.trans hnow)
  refine ⟨vx, wz, px, pz, tx, tz, hput, hlast ▸ previouslyEmitted_last hrun, htarget, hvx, hwz, ?_⟩
  rintro pre ti mid u rfl hu
  obtain ⟨u', hu', hrest⟩ := run_append_iff.mp hrun
  obtain rfl := hu.unique hu'
  obtain ⟨v, hv, hrest⟩ := run_cons_iff.mp hrest
  obtain ⟨-, rfl⟩ := World.step_eq_some_iff.mp hv
  obtain ⟨vi, wi, hemitted, hvi, -⟩ := (tracks_of_run (hu.snoc hv)).limits
  have hbound : RateBound vi wi 0 (u.apply (.tick ti)).bridge.last :=
    ⟨vi, wi, hemitted, hvi, by simp, by simp⟩
  have htick : (u.apply (.tick ti)).bridge.lastTick = ti := Bridge.tick_lastTick
  have hend := (rateBound_of_run hrest (by simp [htick, Event.time]) hbound).tick
    w.token (hclock.trans hnow)
  rw [htick, sub_add_sub_cancel'] at hend
  obtain ⟨vx', wz', hput', -, hvx', hwz'⟩ := hend
  obtain ⟨rfl, rfl⟩ : vx = vx' ∧ wz = wz' := by simpa [hput] using hput'
  exact ⟨vi, wi, hemitted, hvx', hwz'⟩

/-- The first two velocities of a drive, with a NaN yaw rate in the command. -/
theorem emitted_slew_first_motion : ∃ w : World,
    Run World.step (.init 0 true) [.tick 0, .command (9 / 10) ⟨.fin 1, .nan⟩, .tick 1] w ∧
      ∃ vx wz : ℚ, w.emitted (11 / 10) = ⟨.fin vx, .fin wz⟩ ∧ 0 < vx ∧
        vx ≤ 1 / 40 + maxDvxPerS * (11 / 10 - 1) := by
  have hrun : Run World.step (.init 0 true) [.tick 0, .command (9 / 10) ⟨.fin 1, .nan⟩, .tick 1]
      ⟨⟨some ⟨.fin 1, .nan⟩, 9 / 10, true, 0, some 1, .fin (1 / 40), 0, 1⟩, true, 1⟩ :=
    run_iff_exec.mpr (by decide +kernel)
  have hpre : Run World.step (.init 0 true) [.tick 0, .command (9 / 10) ⟨.fin 1, .nan⟩]
      ⟨⟨some ⟨.fin 1, .nan⟩, 9 / 10, true, 0, none, 0, 0, 0⟩, true, 9 / 10⟩ :=
    run_iff_exec.mpr (by decide +kernel)
  refine ⟨_, hrun, ?_⟩
  obtain ⟨vx, wz, px, pz, tx, tz, hput, -, -, -, -, hall⟩ :=
    emitted_slew hrun (show (1 : ℚ) ≤ 11 / 10 by norm_num)
  obtain ⟨vi, wi, hvi, hle, -⟩ := hall _ 1 [] _ rfl hpre
  have hvi' : (⟨.fin vi, .fin wi⟩ : Velocity) = ⟨.fin (1 / 40), .fin 0⟩ :=
    hvi.symm.trans (by decide +kernel)
  obtain ⟨rfl, rfl⟩ : vi = 1 / 40 ∧ wi = 0 := by simpa using hvi'
  have hvx : (⟨.fin vx, .fin wz⟩ : Velocity) = ⟨.fin (7 / 200), .fin 0⟩ :=
    hput.symm.trans (by decide +kernel)
  obtain ⟨rfl, rfl⟩ : vx = 7 / 200 ∧ wz = 0 := by simpa using hvx
  exact ⟨7 / 200, 0, hput, by norm_num, hle⟩

end Gateway
