import HumanoidNavigation.PoseBridge.Node
import HumanoidNavigation.Rotation.Quaternion
import Mathlib.Data.List.Chain

/-!
# The planar frame

In exact arithmetic the frame that the bridge sends turns about the vertical so that its x axis is
the direction of the forward axis of the body in the plane; a roll of the body does not matter. The
twist of a message, taken over the time since the message before, is the displacement since then.
-/

namespace PoseBridge

open PyFloat Ros Rotation Transition
open scoped Matrix

attribute [local instance] PyFloat.real PyFloat.atLeastTwo_two PyFloat.atLeastTwo_ten

variable {s : Node ℝ} {e : Tick ℝ} {source : Transform ℝ} {q : Ros.Quaternion ℝ} {x y : ℝ}

/-! ### The forward axis -/

/-- `math.hypot` -/
noncomputable def hypot (x y : ℝ) : ℝ := √(x * x + y * y)

/-- The x axis of the body in the map. -/
noncomputable def forwardAxis (q : Ros.Quaternion ℝ) : Fin 3 → ℝ :=
  ofQuaternion q.x q.y q.z q.w *ᵥ ![1, 0, 0]

/-- The length of its projection to the plane. -/
noncomputable def planarLength (q : Ros.Quaternion ℝ) : ℝ :=
  hypot (forwardAxis q 0) (forwardAxis q 1)

lemma forwardAxis_zero (hq : UnitLength q) : forwardAxis q 0 = forwardX q := by
  rw [UnitLength] at hq
  simp [forwardAxis, forwardX, ofQuaternion, hq, Matrix.mulVec, dotProduct, Fin.sum_univ_three]

lemma forwardAxis_one (hq : UnitLength q) : forwardAxis q 1 = forwardY q := by
  rw [UnitLength] at hq
  simp [forwardAxis, forwardY, ofQuaternion, hq, Matrix.mulVec, dotProduct, Fin.sum_univ_three]
  ring

/-- A rotation about the x axis of the body. -/
def roll (sinHalf cosHalf : ℝ) : Ros.Quaternion ℝ := ⟨sinHalf, 0, 0, cosHalf⟩

/-- It keeps this axis. -/
lemma roll_mulVec (a b : ℝ) :
    ofQuaternion (roll a b).x (roll a b).y (roll a b).z (roll a b).w *ᵥ ![1, 0, 0] =
      ![1, 0, 0] := by
  funext i
  fin_cases i <;> simp [ofQuaternion, roll, Matrix.mulVec, dotProduct, Fin.sum_univ_three]

lemma forwardAxis_roll {a b : ℝ} (hq : UnitLength q) (hab : UnitLength (roll a b)) :
    forwardAxis (compose q (roll a b)) = forwardAxis q := by
  rw [forwardAxis, ofQuaternion_compose hq hab, ← Matrix.mulVec_mulVec, roll_mulVec]
  rfl

lemma forwardX_roll {a b : ℝ} (hq : UnitLength q) (hab : UnitLength (roll a b)) :
    forwardX (compose q (roll a b)) = forwardX q := by
  rw [← forwardAxis_zero (compose_unitLength hq hab), forwardAxis_roll hq hab, forwardAxis_zero hq]

lemma forwardY_roll {a b : ℝ} (hq : UnitLength q) (hab : UnitLength (roll a b)) :
    forwardY (compose q (roll a b)) = forwardY q := by
  rw [← forwardAxis_one (compose_unitLength hq hab), forwardAxis_roll hq hab, forwardAxis_one hq]

/-! ### The orientation of the frame -/

/-- The quaternion is a turn about the vertical by the angle `a`. -/
def IsYaw (q : Ros.Quaternion ℝ) (a : ℝ) : Prop :=
  -Real.pi < a ∧ a ≤ Real.pi ∧ q = ⟨0, 0, Real.sin (a / 2), Real.cos (a / 2)⟩

lemma IsYaw.unitLength {a : ℝ} (h : IsYaw q a) : UnitLength q := by
  rw [h.2.2, UnitLength]
  linear_combination Real.sin_sq_add_cos_sq (a / 2)

lemma IsYaw.mulVec {a u v : ℝ} (h : IsYaw q a) :
    ofQuaternion q.x q.y q.z q.w *ᵥ ![u, v, 0] =
      ![Real.cos a * u - Real.sin a * v, Real.sin a * u + Real.cos a * v, 0] := by
  have hunit := h.unitLength
  obtain ⟨-, -, rfl⟩ := h
  have hdouble : 2 * (a / 2) = a := mul_div_cancel₀ a two_ne_zero
  have hsin := Real.sin_two_mul (a / 2)
  have hcos := Real.cos_two_mul (a / 2)
  have hsq := Real.sin_sq_add_cos_sq (a / 2)
  rw [hdouble] at hsin hcos
  simp only [UnitLength] at hunit
  simp only [ofQuaternion, hunit]
  funext i
  fin_cases i <;> simp [Matrix.mulVec, dotProduct, Fin.sum_univ_three]
  · rw [hsin, hcos]
    linear_combination -2 * u * hsq
  · rw [hsin, hcos]
    linear_combination -2 * v * hsq

/-! ### One tick -/

/-- The clock of a tick in seconds. -/
noncomputable def now (e : Tick ℝ) : ℝ := e.nanoseconds / 10 ^ 9

@[simp] lemma seconds_eq (e : Tick ℝ) : e.seconds = .ok (now e) := by
  simp [Tick.seconds, div, now]

@[simp] lemma pyMax_eq (x y : ℝ) : pyMax x y = max x y := by
  simp only [pyMax, real_lt, decide_eq_true_eq]
  split_ifs with h
  · exact (max_eq_right h.le).symm
  · exact (max_eq_left (not_lt.mp h)).symm

/-- `dt` -/
noncomputable def elapsed (earlier later : ℝ) : ℝ := max (later - earlier) (1 / 10 ^ 3)

lemma elapsed_pos (earlier later : ℝ) : 0 < elapsed earlier later :=
  lt_of_lt_of_le (by norm_num) (le_max_right _ _)

/-- The angle of the forward axis. -/
noncomputable def heading (q : Ros.Quaternion ℝ) : ℝ := Complex.arg ⟨forwardX q, forwardY q⟩

/-- The twist in exact arithmetic. -/
noncomputable def twistOf (last : LastPose ℝ) (x y yaw nowS : ℝ) : Vector3 ℝ × Vector3 ℝ :=
  let dt := elapsed last.s nowS
  let vxMap := (x - last.x) / dt
  let vyMap := (y - last.y) / dt
  (⟨Real.cos yaw * vxMap + Real.sin yaw * vyMap, -Real.sin yaw * vxMap + Real.cos yaw * vyMap, 0⟩,
    ⟨0, 0, Complex.arg ⟨Real.cos (yaw - last.yaw), Real.sin (yaw - last.yaw)⟩ / dt⟩)

lemma twist_eq (last : LastPose ℝ) (x y yaw nowS : ℝ) :
    twist last x y yaw nowS = .ok (twistOf last x y yaw nowS) := by
  have hdt : pyMax (nowS - last.s) (lit (1 / 10 ^ 3)) = elapsed last.s nowS := by
    norm_num [elapsed]
  have hdiv : ∀ v : ℝ, div v (elapsed last.s nowS) = .ok (v / elapsed last.s nowS) :=
    fun v => if_neg (elapsed_pos last.s nowS).ne'
  simp only [twist, hdt, hdiv]
  simp [twistOf, sin, cos, atan2, bind, Except.bind, pure, Except.pure]

/-- The message of a tick, given its twist. -/
noncomputable def odometryOf (e : Tick ℝ) (source : Transform ℝ)
    (v : Vector3 ℝ × Vector3 ℝ) : Odometry ℝ where
  stamp := e.stamp
  frameId := "map"
  childFrameId := "g1_nav_base"
  position := ⟨source.translation.x, source.translation.y, 0⟩
  orientation :=
    ⟨0, 0, Real.sin (heading source.rotation / 2), Real.cos (heading source.rotation / 2)⟩
  linear := v.1
  angular := v.2

noncomputable def flatOf (e : Tick ℝ) (source : Transform ℝ) : TransformStamped ℝ where
  stamp := e.stamp
  frameId := "map"
  childFrameId := "g1_nav_base"
  transform := ⟨⟨source.translation.x, source.translation.y, 0⟩,
    ⟨0, 0, Real.sin (heading source.rotation / 2), Real.cos (heading source.rotation / 2)⟩⟩

/-- The twist of a tick, zero for the first message. -/
noncomputable def twistAt (s : Node ℝ) (e : Tick ℝ) (source : Transform ℝ) :
    Vector3 ℝ × Vector3 ℝ :=
  match s.lastPose with
  | none => (⟨0, 0, 0⟩, ⟨0, 0, 0⟩)
  | some last =>
    twistOf last source.translation.x source.translation.y (heading source.rotation) (now e)

lemma tick_of_short (hsource : e.source = some source)
    (h : hypot (forwardX source.rotation) (forwardY source.rotation) < 1 / 4) :
    s.tick hypot e = .ok (s, [.ready false]) := by
  have hlit : ((1 / 4 : ℚ) : ℝ) = 1 / 4 := by norm_num
  simp only [Node.tick, hsource, real_lit, real_lt, hlit, decide_eq_true_eq, h, if_true]
  rfl

lemma tick_of_long (hsource : e.source = some source)
    (h : 1 / 4 ≤ hypot (forwardX source.rotation) (forwardY source.rotation)) :
    s.tick hypot e = .ok
      ({ s with lastPose := some ⟨source.translation.x, source.translation.y,
          heading source.rotation, now e⟩ },
        [.transform (flatOf e source), .odometry (odometryOf e source (twistAt s e source)),
          .ready true]) := by
  have hlit : ((1 / 4 : ℚ) : ℝ) = 1 / 4 := by norm_num
  have hhalf : lit (1 / 2) * heading source.rotation = heading source.rotation / 2 := by
    norm_num
    ring
  have hheading : atan2 (forwardY source.rotation) (forwardX source.rotation) =
      heading source.rotation := rfl
  simp only [Node.tick, hsource, hheading, hhalf, seconds_eq]
  rw [if_neg (by simpa [hlit] using h)]
  cases hlast : s.lastPose with
  | none =>
    simp [flatOf, odometryOf, twistAt, hlast, sin, cos, bind, Except.bind, pure, Except.pure]
  | some last =>
    simp [flatOf, odometryOf, twistAt, hlast, twist_eq, sin, cos, bind, Except.bind, pure,
      Except.pure]

lemma isYaw_heading (q : Ros.Quaternion ℝ) :
    IsYaw ⟨0, 0, Real.sin (heading q / 2), Real.cos (heading q / 2)⟩ (heading q) :=
  ⟨Complex.neg_pi_lt_arg _, Complex.arg_le_pi _, rfl⟩

/-- The quaternion is a unit quaternion that turns about the vertical and takes the x axis to the
direction of `v` in the plane. -/
structure Heads (q : Ros.Quaternion ℝ) (v : Fin 3 → ℝ) : Prop where
  unit : UnitLength q
  yaw : q.x = 0 ∧ q.y = 0
  direction : ofQuaternion q.x q.y q.z q.w *ᵥ ![1, 0, 0] =
    ![v 0 / hypot (v 0) (v 1), v 1 / hypot (v 0) (v 1), 0]

lemma heads_forwardAxis (hq : UnitLength q) (h : 0 < planarLength q) :
    Heads ⟨0, 0, Real.sin (heading q / 2), Real.cos (heading q / 2)⟩ (forwardAxis q) := by
  have hyaw := isYaw_heading q
  refine ⟨hyaw.unitLength, ⟨rfl, rfl⟩, ?_⟩
  rw [planarLength, forwardAxis_zero hq, forwardAxis_one hq] at h
  rw [hyaw.mulVec, forwardAxis_zero hq, forwardAxis_one hq, heading, cos_arg (Real.sqrt_pos.mp h),
    sin_arg]
  simp [hypot]

/-! ### From one message to the next -/

/-- The twist of the message `m` is the motion since the message `m₀`. -/
structure Moves (p₀ p : Tick ℝ × Odometry ℝ) : Prop where
  displacement : elapsed (now p₀.1) (now p.1) •
      (ofQuaternion p.2.orientation.x p.2.orientation.y p.2.orientation.z p.2.orientation.w *ᵥ
        ![p.2.linear.x, p.2.linear.y, 0]) =
    ![p.2.position.x - p₀.2.position.x, p.2.position.y - p₀.2.position.y, 0]
  turn : ∃ a₀ a, IsYaw p₀.2.orientation a₀ ∧ IsYaw p.2.orientation a ∧
    ∃ k : ℤ, p.2.angular.z * elapsed (now p₀.1) (now p.1) = a - a₀ + 2 * Real.pi * k
  turn_le : |p.2.angular.z * elapsed (now p₀.1) (now p.1)| ≤ Real.pi

/-- The pose that the node remembers is that of this message. -/
structure Records (p : Tick ℝ × Odometry ℝ) (last : LastPose ℝ) : Prop where
  x : last.x = p.2.position.x
  y : last.y = p.2.position.y
  yaw : IsYaw p.2.orientation last.yaw
  s : last.s = now p.1

/-- The angle of the sine and the cosine of an angle is this angle up to full turns. -/
lemma exists_arg_eq (a : ℝ) :
    ∃ k : ℤ, Complex.arg ⟨Real.cos a, Real.sin a⟩ = a + 2 * Real.pi * k := by
  refine ⟨-toIocDiv Real.two_pi_pos (-Real.pi) a, ?_⟩
  have hmod := toIocMod_add_toIocDiv_mul Real.two_pi_pos (-Real.pi) a
  rw [Complex.mk_eq_add_mul_I, Complex.ofReal_cos, Complex.ofReal_sin,
    Complex.arg_cos_add_sin_mul_I_eq_toIocMod]
  push_cast
  linear_combination hmod

lemma moves_of_records {p : Tick ℝ × Odometry ℝ} {last : LastPose ℝ} (h : Records p last)
    (hlast : s.lastPose = some last) (source : Transform ℝ) (e : Tick ℝ) :
    Moves p (e, odometryOf e source (twistAt s e source)) := by
  have hne : elapsed last.s (now e) ≠ 0 := (elapsed_pos last.s (now e)).ne'
  have hyaw := isYaw_heading source.rotation
  have htwist : twistAt s e source = twistOf last source.translation.x source.translation.y
      (heading source.rotation) (now e) := by
    rw [twistAt, hlast]
  have hturn : (twistAt s e source).2.z * elapsed last.s (now e) =
      Complex.arg ⟨Real.cos (heading source.rotation - last.yaw),
        Real.sin (heading source.rotation - last.yaw)⟩ := by
    rw [htwist]
    exact div_mul_cancel₀ _ hne
  refine ⟨?_, ⟨last.yaw, heading source.rotation, h.yaw, hyaw, ?_⟩, ?_⟩
  · rw [← h.s, ← h.x, ← h.y]
    have hmul := hyaw.mulVec (u := (twistAt s e source).1.x) (v := (twistAt s e source).1.y)
    rw [odometryOf, hmul, htwist, twistOf]
    have hcircle := Real.sin_sq_add_cos_sq (heading source.rotation)
    funext i
    fin_cases i <;> simp <;> field_simp
    · linear_combination (source.translation.x - last.x) * hcircle
    · linear_combination (source.translation.y - last.y) * hcircle
  · rw [← h.s]
    obtain ⟨k, hk⟩ := exists_arg_eq (heading source.rotation - last.yaw)
    exact ⟨k, hturn.trans hk⟩
  · rw [← h.s]
    show |(twistAt s e source).2.z * elapsed last.s (now e)| ≤ Real.pi
    rw [hturn]
    exact Complex.abs_arg_le_pi _

/-! ### Runs -/

variable {es : List (Tick ℝ)} {w w' : World ℝ}

/-- The odometry messages of a log, each with its tick. -/
def published (log : List (Tick ℝ × List (Output ℝ))) : List (Tick ℝ × Odometry ℝ) :=
  log.flatMap fun entry => entry.2.filterMap fun
    | .odometry msg => some (entry.1, msg)
    | _ => none

lemma published_append (log : List (Tick ℝ × List (Output ℝ))) (e : Tick ℝ)
    (out : List (Output ℝ)) :
    published (log ++ [(e, out)]) = published log ++ published [(e, out)] :=
  List.flatMap_append

/-- A tick publishes an odometry message and remembers its pose, or it does neither. -/
lemma tick_cases (s : Node ℝ) (e : Tick ℝ) :
    (∃ s' out, s.tick hypot e = .ok (s', out) ∧ s'.lastPose = s.lastPose ∧
      published [(e, out)] = []) ∨
    ∃ s' out source, s.tick hypot e = .ok (s', out) ∧
      published [(e, out)] = [(e, odometryOf e source (twistAt s e source))] ∧
      ∃ last, s'.lastPose = some last ∧
        Records (e, odometryOf e source (twistAt s e source)) last := by
  cases hsource : e.source with
  | none =>
    left
    simp only [Node.tick, hsource, seconds_eq, bind, Except.bind]
    split_ifs
    · exact ⟨_, _, rfl, rfl, rfl⟩
    · exact ⟨_, _, rfl, rfl, rfl⟩
  | some source =>
    rcases lt_or_ge (hypot (forwardX source.rotation) (forwardY source.rotation)) (1 / 4) with h | h
    · exact Or.inl ⟨_, _, tick_of_short hsource h, rfl, rfl⟩
    · exact Or.inr ⟨_, _, source, tick_of_long hsource h, rfl, _, rfl, rfl, rfl,
        isYaw_heading source.rotation, rfl⟩

/-- The messages follow each other, and the node remembers the last one. -/
structure Follows (w : World ℝ) : Prop where
  chain : (published w.log).IsChain Moves
  last : ∀ p ∈ (published w.log).getLast?, ∃ last, w.node.lastPose = some last ∧ Records p last

lemma Follows.step (h : Follows w) {e : Tick ℝ} (he : World.step hypot w e = some w') :
    Follows w' := by
  simp only [World.step] at he
  rcases tick_cases w.node e with ⟨s', out, htick, hlast, hout⟩ |
    ⟨s', out, source, htick, hout, last, hlast, hrecords⟩
  · rw [htick] at he
    obtain rfl := Option.some.inj he
    refine ⟨?_, ?_⟩
    · rw [published_append, hout, List.append_nil]
      exact h.chain
    · rw [published_append, hout, List.append_nil, hlast]
      exact h.last
  · rw [htick] at he
    obtain rfl := Option.some.inj he
    refine ⟨?_, ?_⟩
    · rw [published_append, hout]
      refine List.isChain_append.mpr ⟨h.chain, List.isChain_singleton _, ?_⟩
      intro p hp p' hp'
      obtain ⟨last₀, hlast₀, hrecords₀⟩ := h.last p hp
      obtain rfl := Option.some.inj hp'
      exact moves_of_records hrecords₀ hlast₀ source e
    · rw [published_append, hout, List.getLast?_concat]
      rintro p ⟨⟩
      exact ⟨last, hlast, hrecords⟩

lemma follows_of_run (hrun : Run (World.step hypot) World.init es w) : Follows w :=
  hrun.invariant_state ⟨List.IsChain.nil, by rintro p ⟨⟩⟩ fun _ _ _ h he => h.step he

/-! ### The planar frame -/

/-- What the bridge makes of a transform with the rotation `q`: a planar frame along the forward
axis, or only that it is not ready. -/
structure Flattens (s : Node ℝ) (e : Tick ℝ) (source : Transform ℝ) : Prop where
  long : 1 / 4 ≤ planarLength source.rotation → ∃ s' tf odom,
    s.tick hypot e = .ok (s', [.transform tf, .odometry odom, .ready true]) ∧
      Heads tf.transform.rotation (forwardAxis source.rotation) ∧
      odom.orientation = tf.transform.rotation
  short : planarLength source.rotation < 1 / 4 → s.tick hypot e = .ok (s, [.ready false])
  roll : ∀ a b, UnitLength (roll a b) →
    s.tick hypot { e with source := some { source with
      rotation := compose source.rotation (PoseBridge.roll a b) } } = s.tick hypot e

lemma flattens (hsource : e.source = some source) (hq : UnitLength source.rotation) (s : Node ℝ) :
    Flattens s e source := by
  have hlength : planarLength source.rotation =
      hypot (forwardX source.rotation) (forwardY source.rotation) := by
    rw [planarLength, forwardAxis_zero hq, forwardAxis_one hq]
  refine ⟨fun h => ?_, fun h => ?_, fun a b hab => ?_⟩
  · have hpos : 0 < planarLength source.rotation := lt_of_lt_of_le (by norm_num) h
    exact ⟨_, _, _, tick_of_long hsource (hlength ▸ h), heads_forwardAxis hq hpos, rfl⟩
  · exact tick_of_short hsource (hlength ▸ h)
  · simp only [Node.tick, hsource, forwardX_roll hq hab, forwardY_roll hq hab]
    rfl

/-- From a unit quaternion the bridge makes a planar frame along the forward axis of the body, which
a roll does not change, unless the axis is too steep; in every run each message moves from the one
before. -/
theorem planar_frame (hrun : Run (World.step hypot) World.init es w) :
    (∀ s e source, e.source = some source → UnitLength source.rotation → Flattens s e source) ∧
      (published w.log).IsChain Moves :=
  ⟨fun s _ _ hsource hq => flattens hsource hq s, (follows_of_run hrun).chain⟩

/-! An upright body that moves forward by a meter in a second. -/

noncomputable def uprightAt (x : ℝ) : Transform ℝ := ⟨⟨x, 0, 0⟩, ⟨0, 0, 0, 1⟩⟩

noncomputable def uprightTick (sec : ℤ) (x : ℝ) : Tick ℝ :=
  ⟨some (uprightAt x), ⟨sec, 0⟩, sec * 10 ^ 9⟩

lemma step_upright (w : World ℝ) (sec : ℤ) (x : ℝ) : ∃ w' msg,
    World.step hypot w (uprightTick sec x) = some w' ∧
      published w'.log = published w.log ++ [(uprightTick sec x, msg)] := by
  have hlong :
      1 / 4 ≤ hypot (forwardX (uprightAt x).rotation) (forwardY (uprightAt x).rotation) := by
    norm_num [hypot, forwardX, forwardY, uprightAt]
  have htick := tick_of_long (s := w.node) (e := uprightTick sec x) rfl hlong
  simp only [World.step, htick]
  exact ⟨_, _, rfl, published_append _ _ _⟩

theorem planar_frame_upright :
    ∃ w, Run (World.step hypot) World.init [uprightTick 1 0, uprightTick 2 1] w ∧
      (published w.log).length = 2 ∧ (published w.log).IsChain Moves ∧
      Flattens Node.init (uprightTick 1 0) (uprightAt 0) := by
  obtain ⟨w₁, m₁, h₁, hlog₁⟩ := step_upright World.init 1 0
  obtain ⟨w₂, m₂, h₂, hlog₂⟩ := step_upright w₁ 2 1
  have hfirst : Run (World.step hypot) World.init [uprightTick 1 0] w₁ := Run.snoc Run.nil h₁
  have hrun : Run (World.step hypot) World.init [uprightTick 1 0, uprightTick 2 1] w₂ :=
    hfirst.snoc h₂
  obtain ⟨hflat, hchain⟩ := planar_frame hrun
  have hinit : published World.init.log = [] := rfl
  refine ⟨w₂, hrun, ?_, hchain, hflat _ _ _ rfl (by simp [UnitLength, uprightAt])⟩
  rw [hlog₂, hlog₁, hinit]
  rfl

end PoseBridge
