import HumanoidNavigation.Numeric.ExtFloat
import Mathlib.Algebra.Order.Field.Basic
import Mathlib.Algebra.Order.Field.Rat
import Mathlib.Tactic.Linarith
import Mathlib.Tactic.NormNum

/-!
# The motion gateway

`Bridge` is the node of `g1_cmd_vel_bridge.py` that turns Nav2 `Twist` messages into limited
velocities. `Bridge.tick` runs at `CONTROL_HZ`: it samples the arm token, decides whether the
cached command may pass, clamps it and limits its slew rate. What it passes to `_put_latest`
is the `put` field of its output.

Message values are arbitrary floats, NaN and the infinities included. `time.monotonic()` and the
velocities that the node computes from finite values are exact rationals, where the code rounds to
doubles.
-/

namespace Gateway

/-! ### Constants -/

def cmdTimeoutS : ℚ := 0.30
def maxVx : ℚ := 0.20
def maxWz : ℚ := 0.20
def maxDvxPerS : ℚ := 0.10
def maxDwzPerS : ℚ := 0.20
def firstMotionS : ℚ := 3
def firstMaxVx : ℚ := 0.20
def firstMaxWz : ℚ := 0.20
def armSettleS : ℚ := 1

lemma maxVx_nonneg : 0 ≤ maxVx := by norm_num [maxVx]
lemma maxWz_nonneg : 0 ≤ maxWz := by norm_num [maxWz]
lemma firstMaxVx_nonneg : 0 ≤ firstMaxVx := by norm_num [firstMaxVx]
lemma firstMaxWz_nonneg : 0 ≤ firstMaxWz := by norm_num [firstMaxWz]

/-! ### Clamping -/

/-- `_finite_clamp`: NaN and the infinities become zero. -/
def finiteClamp (value low high : ExtFloat ℚ) : ExtFloat ℚ :=
  if value.isFinite then ExtFloat.pyMax low (ExtFloat.pyMin high value) else 0

@[simp] lemma finiteClamp_fin (v l h : ℚ) :
    finiteClamp (.fin v) (.fin l) (.fin h) = .fin (max l (min h v)) := by
  simp [finiteClamp, ExtFloat.isFinite]

/-- Whatever the value, a clamp to an interval around zero yields a number of that interval. -/
lemma finiteClamp_mem (v : ExtFloat ℚ) {l h : ℚ} (hl : l ≤ 0) (hh : 0 ≤ h) :
    ∃ q, finiteClamp v (.fin l) (.fin h) = .fin q ∧ l ≤ q ∧ q ≤ h := by
  cases v with
  | fin x =>
    refine ⟨max l (min h x), finiteClamp_fin x l h, le_max_left _ _, ?_⟩
    exact max_le (hl.trans hh) (min_le_left _ _)
  | posInf => exact ⟨0, rfl, hl, hh⟩
  | negInf => exact ⟨0, rfl, hl, hh⟩
  | nan => exact ⟨0, rfl, hl, hh⟩

/-- A clamp to a window around the previous value does not leave an interval that holds both
the previous value and the target. -/
lemma slew_mem {target last d l h : ℚ} (hd : 0 ≤ d) (ht : l ≤ target ∧ target ≤ h)
    (hlast : l ≤ last ∧ last ≤ h) :
    ∃ q, finiteClamp (.fin target) (.fin last - .fin d) (.fin last + .fin d) = .fin q ∧
      l ≤ q ∧ q ≤ h := by
  rw [ExtFloat.fin_sub_fin, ExtFloat.fin_add_fin]
  refine ⟨_, finiteClamp_fin _ _ _, ?_, ?_⟩
  · exact le_max_of_le_right (le_min (by linarith [hlast.1]) ht.1)
  · exact max_le (by linarith [hlast.2]) (min_le_of_right_le ht.2)

/-! ### The node -/

/-- The two fields of a `Twist` that the gateway reads. -/
structure Twist where
  linearX : ExtFloat ℚ
  angularZ : ExtFloat ℚ
  deriving DecidableEq

/-- A pair `(vx, wz)`. -/
structure Velocity where
  vx : ExtFloat ℚ
  wz : ExtFloat ℚ
  deriving DecidableEq

instance : Zero Velocity := ⟨⟨0, 0⟩⟩

/-- Finite, never reverse, and at most the maximal speeds. -/
def Velocity.WithinLimits (v : Velocity) : Prop :=
  ∃ vx wz : ℚ, v = ⟨.fin vx, .fin wz⟩ ∧ 0 ≤ vx ∧ vx ≤ maxVx ∧ |wz| ≤ maxWz

lemma Velocity.zero_withinLimits : (0 : Velocity).WithinLimits :=
  ⟨0, 0, rfl, le_rfl, maxVx_nonneg, by simpa using maxWz_nonneg⟩

/-- The state of the node. -/
structure Bridge where
  latest : Option Twist
  latestTime : ℚ
  wasArmed : Bool
  armedSince : ℚ
  motionSince : Option ℚ
  lastVx : ExtFloat ℚ
  lastWz : ExtFloat ℚ
  lastTick : ℚ
  deriving DecidableEq

/-- What a tick hands to the SDK process and publishes. -/
structure TickOutput where
  put : Velocity
  limited : Twist
  armed : Bool

namespace Bridge

/-- `Bridge.__init__` -/
def init (now : ℚ) : Bridge where
  latest := none
  latestTime := 0
  wasArmed := false
  armedSince := 0
  motionSince := none
  lastVx := 0
  lastWz := 0
  lastTick := now

/-- `Bridge.on_cmd` -/
def onCmd (b : Bridge) (msg : Twist) (now : ℚ) : Bridge :=
  { b with latest := some msg, latestTime := now }

/-- The first part of `tick`: a change from disarmed to armed restarts the settling period and
drops the cached command. -/
def observeToken (b : Bridge) (armed : Bool) (now : ℚ) : Bridge :=
  if armed && !b.wasArmed then
    { b with wasArmed := armed, armedSince := now, motionSince := none, latest := none }
  else
    { b with wasArmed := armed }

/-- `fresh` -/
def fresh (b : Bridge) (now : ℚ) : Bool :=
  b.latest.isSome && decide (now - b.latestTime ≤ cmdTimeoutS)

/-- `enabled` -/
def enabled (b : Bridge) (armed : Bool) (now : ℚ) : Bool :=
  armed && decide (now - b.armedSince ≥ armSettleS) && b.fresh now

/-- `motion_since` once the clamped target is known. -/
def updateMotionSince (since : Option ℚ) (targetVx targetWz : ExtFloat ℚ) (now : ℚ) : Option ℚ :=
  let moving := (ExtFloat.fin 1e-4).lt targetVx.abs || (ExtFloat.fin 1e-4).lt targetWz.abs
  if moving then some (since.getD now) else none

/-- The target velocity of an enabled tick, with the tighter limits of the first motion. -/
def target (msg : Twist) (since : Option ℚ) (now : ℚ) : Velocity × Option ℚ :=
  let targetVx := finiteClamp msg.linearX 0 (.fin maxVx)
  let targetWz := finiteClamp msg.angularZ (.fin (-maxWz)) (.fin maxWz)
  let since := updateMotionSince since targetVx targetWz now
  if since.any fun t => now - t < firstMotionS then
    (⟨ExtFloat.pyMin targetVx (.fin firstMaxVx),
      finiteClamp targetWz (.fin (-firstMaxWz)) (.fin firstMaxWz)⟩, since)
  else
    (⟨targetVx, targetWz⟩, since)

/-- The slew limit of an enabled tick. -/
def slew (b : Bridge) (target : Velocity) (dt : ℚ) : Velocity :=
  let dv := maxDvxPerS * dt
  let dw := maxDwzPerS * dt
  ⟨finiteClamp target.vx (b.lastVx - .fin dv) (b.lastVx + .fin dv),
    finiteClamp target.wz (b.lastWz - .fin dw) (b.lastWz + .fin dw)⟩

/-- The velocity of a tick and the new `motion_since`. Stops are immediate; only an enabled tick
is slew limited. -/
def command (b : Bridge) (armed : Bool) (now dt : ℚ) : Velocity × Option ℚ :=
  match b.latest, b.enabled armed now with
  | some msg, true =>
    let t := target msg b.motionSince now
    (b.slew t.1 dt, t.2)
  | _, _ => (0, none)

/-- `Bridge.tick`, with `armed` the result of `ARM_FILE.is_file()`. -/
def tick (b : Bridge) (armed : Bool) (now : ℚ) : Bridge × TickOutput :=
  let dt := max 0 (min (1 / 4) (now - b.lastTick))
  let b := { b with lastTick := now }.observeToken armed now
  let c := b.command armed now dt
  ({ b with motionSince := c.2, lastVx := c.1.vx, lastWz := c.1.wz },
    { put := c.1, limited := ⟨c.1.vx, c.1.wz⟩, armed := armed })

/-! ### What a tick does -/

variable {b : Bridge} {armed : Bool} {now : ℚ}

/-- The velocity that was emitted last. -/
def last (b : Bridge) : Velocity := ⟨b.lastVx, b.lastWz⟩

@[simp] lemma observeToken_wasArmed : (b.observeToken armed now).wasArmed = armed := by
  simp only [observeToken]
  split_ifs <;> rfl

lemma observeToken_of_wasArmed (h : b.wasArmed = true) :
    b.observeToken armed now = { b with wasArmed := armed } := by
  simp [observeToken, h]

lemma observeToken_arming (h : b.wasArmed = false) :
    b.observeToken true now =
      { b with wasArmed := true, armedSince := now, motionSince := none, latest := none } := by
  simp [observeToken, h]

@[simp] lemma tick_wasArmed : (b.tick armed now).1.wasArmed = armed := by
  simp [tick]

/-- A tick that finds the node armed already, or disarmed, leaves the settling period and the
cached command alone. -/
lemma tick_keeps (armed : Bool) (now : ℚ) (h : b.wasArmed = true ∨ armed = false) :
    (b.tick armed now).1.armedSince = b.armedSince ∧
    (b.tick armed now).1.latest = b.latest ∧
    (b.tick armed now).1.latestTime = b.latestTime := by
  have hcond : (armed && !b.wasArmed) = false := by
    rcases h with h | h <;> simp [h]
  simp [tick, observeToken, hcond]

/-- A tick that arms the node starts the settling period and drops the cached command. -/
lemma tick_arming (now : ℚ) (h : b.wasArmed = false) :
    (b.tick true now).1.armedSince = now ∧ (b.tick true now).1.latest = none := by
  simp [tick, observeToken, h]

/-- What a tick puts is what it remembers as the last velocity. -/
lemma tick_put : (b.tick armed now).2.put = (b.tick armed now).1.last := rfl

@[simp] lemma observeToken_last : (b.observeToken armed now).last = b.last := by
  simp only [observeToken]
  split_ifs <;> rfl

/-- A tick emits zero, or the node is enabled once the token is sampled, and it emits the
slewed target of the cached command. -/
lemma tick_put_cases (b : Bridge) (armed : Bool) (now : ℚ) : (b.tick armed now).2.put = 0 ∨
    ∃ c msg since dt, c = { b with lastTick := now }.observeToken armed now ∧
      c.enabled armed now = true ∧ c.latest = some msg ∧ 0 ≤ dt ∧
      (b.tick armed now).2.put = c.slew (target msg since now).1 dt := by
  simp only [tick]
  generalize hc : { b with lastTick := now }.observeToken armed now = c
  simp only [command]
  split
  · next msg hmsg henabled =>
    exact Or.inr ⟨c, msg, _, _, rfl, henabled, hmsg, le_max_left _ _, rfl⟩
  · exact Or.inl rfl

/-- A nonzero velocity needs the token, a completed settling period that began at an earlier
tick, and a cached command that is fresh. -/
lemma of_tick_put_ne_zero (h : (b.tick armed now).2.put ≠ 0) :
    armed = true ∧ b.wasArmed = true ∧ armSettleS ≤ now - b.armedSince ∧
      ∃ msg, b.latest = some msg ∧ now - b.latestTime ≤ cmdTimeoutS := by
  obtain h0 | ⟨c, msg, since, dt, rfl, henabled, hmsg, -⟩ := tick_put_cases b armed now
  · exact absurd h0 h
  · simp only [enabled, fresh, Bool.and_eq_true, decide_eq_true_eq] at henabled
    obtain ⟨⟨rfl, hsettle⟩, -, hfresh⟩ := henabled
    cases hwas : b.wasArmed with
    | false =>
      rw [observeToken_arming (b := { b with lastTick := now }) hwas] at hmsg
      simp at hmsg
    | true =>
      rw [observeToken_of_wasArmed (b := { b with lastTick := now }) hwas] at hmsg hsettle hfresh
      exact ⟨rfl, rfl, hsettle, msg, hmsg, hfresh⟩

/-! ### Limits of the emitted velocity -/

/-- The target of any message, NaN and infinities included, is within the limits. -/
lemma target_withinLimits (msg : Twist) (since : Option ℚ) (now : ℚ) :
    (target msg since now).1.WithinLimits := by
  obtain ⟨vx, hvx, hvx0, hvx1⟩ := finiteClamp_mem msg.linearX le_rfl maxVx_nonneg
  obtain ⟨wz, hwz, hwz0, hwz1⟩ :=
    finiteClamp_mem msg.angularZ (neg_nonpos.mpr maxWz_nonneg) maxWz_nonneg
  rw [← ExtFloat.zero_def] at hvx
  simp only [target, hvx, hwz]
  split_ifs
  · refine ⟨min vx firstMaxVx, max (-firstMaxWz) (min firstMaxWz wz), ?_, ?_, ?_, ?_⟩
    · simp
    · exact le_min hvx0 firstMaxVx_nonneg
    · exact min_le_of_left_le hvx1
    · refine abs_le.mpr ⟨?_, ?_⟩
      · exact le_max_of_le_right (le_min (by linarith [firstMaxWz_nonneg, maxWz_nonneg]) hwz0)
      · exact max_le (by linarith [firstMaxWz_nonneg, maxWz_nonneg]) (min_le_of_right_le hwz1)
  · exact ⟨vx, wz, rfl, hvx0, hvx1, abs_le.mpr ⟨hwz0, hwz1⟩⟩

/-- The slew limit keeps the velocity within the limits when target and previous velocity
are. -/
lemma slew_withinLimits {v : Velocity} {dt : ℚ} (hdt : 0 ≤ dt) (hlast : b.last.WithinLimits)
    (hv : v.WithinLimits) : (b.slew v dt).WithinLimits := by
  obtain ⟨lx, lz, hl, hlx0, hlx1, hlz⟩ := hlast
  obtain ⟨vx, wz, rfl, hvx0, hvx1, hwz⟩ := hv
  obtain ⟨hlx, hlz'⟩ : b.lastVx = .fin lx ∧ b.lastWz = .fin lz := by
    simpa [last] using hl
  have hdv : 0 ≤ maxDvxPerS * dt := mul_nonneg (by norm_num [maxDvxPerS]) hdt
  have hdw : 0 ≤ maxDwzPerS * dt := mul_nonneg (by norm_num [maxDwzPerS]) hdt
  obtain ⟨qx, hqx, hqx0, hqx1⟩ := slew_mem hdv ⟨hvx0, hvx1⟩ ⟨hlx0, hlx1⟩
  obtain ⟨qz, hqz, hqz0, hqz1⟩ := slew_mem hdw (abs_le.mp hwz) (abs_le.mp hlz)
  refine ⟨qx, qz, ?_, hqx0, hqx1, abs_le.mpr ⟨hqz0, hqz1⟩⟩
  simp only [slew, hlx, hlz', hqx, hqz]

lemma tick_withinLimits (h : b.last.WithinLimits) :
    (b.tick armed now).1.last.WithinLimits := by
  rw [← tick_put]
  obtain h0 | ⟨c, msg, since, dt, rfl, -, -, hdt, hput⟩ := tick_put_cases b armed now
  · rw [h0]
    exact Velocity.zero_withinLimits
  · rw [hput]
    refine slew_withinLimits hdt ?_ (target_withinLimits msg since now)
    rw [observeToken_last]
    exact h

end Bridge
end Gateway
