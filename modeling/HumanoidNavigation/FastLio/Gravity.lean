import HumanoidNavigation.FastLio.System
import HumanoidNavigation.Numeric.CppReal
import HumanoidNavigation.Rotation.Align
import HumanoidNavigation.Rotation.Quaternion

/-!
# The gravity frame

Once the filter is initialised, `timer_callback` of the laser mapping node sends one static
transform from `world` to `camera_init`, whose rotation takes the estimated gravity to the downward
vertical. What the estimator and the map make of a group is part of the event.
-/

namespace FastLio

open Transition CppFloat CppMath

/-! ### Vectors of Eigen -/

abbrev V3D (F : Type) := Fin 3 → F

namespace V3D

variable {F : Type} [CppMath F]

def dot (v w : V3D F) : F := v 0 * w 0 + v 1 * w 1 + v 2 * w 2

def cross (v w : V3D F) : V3D F :=
  ![v 1 * w 2 - v 2 * w 1, v 2 * w 0 - v 0 * w 2, v 0 * w 1 - v 1 * w 0]

def norm (v : V3D F) : F := sqrt (v.dot v)

/-- `normalize()`, which leaves the zero vector alone -/
def normalize (v : V3D F) : V3D F := if lt (lit 0) (v.dot v) then fun i => v i / v.norm else v

/-- The conversion of an `AngleAxisd` to a quaternion. -/
def angleAxis (angle : F) (axis : V3D F) : Ros.Quaternion F :=
  let half := lit (1 / 2) * angle
  ⟨sin half * axis 0, sin half * axis 1, sin half * axis 2, cos half⟩

end V3D

/-! ### The timer -/

variable {F : Type} [CppMath F]

/-- What the estimator makes of a group: is the undistorted cloud empty, is there a map, the gravity
of the state, and the time of the clock. -/
structure Estimate (F : Type) where
  featsEmpty : Bool
  rootNode : Bool
  grav : V3D F
  now : Ros.Stamp

/-- World gravity direction -/
def gWorld : V3D F := ![lit 0, lit 0, lit (-1)]

/-- The rotation of the gravity frame. -/
def gravityQuaternion (grav : V3D F) : Ros.Quaternion F :=
  let gCam := grav.normalize
  let axis := gCam.cross gWorld
  let sinA := axis.norm
  let cosA := V3D.dot gWorld gCam
  if lt sinA (lit (1 / 10 ^ 6)) then
    if lt (lit 0) cosA then ⟨lit 0, lit 0, lit 0, lit 1⟩ else ⟨lit 1, lit 0, lit 0, lit 0⟩
  else V3D.angleAxis (atan2 sinA cosA) fun i => axis i / sinA

def worldTf (e : Estimate F) : Ros.TransformStamped F where
  stamp := e.now
  frameId := "world"
  childFrameId := "camera_init"
  transform := ⟨⟨lit 0, lit 0, lit 0⟩, gravityQuaternion e.grav⟩

/-- The node, with the variables that decide when the transform is sent. -/
structure LaserMappingNode (F : Type) where
  lio : Lio F
  flgFirstScan : Bool
  firstLidarTime : F
  flgEkfInited : Bool
  gravityTfPublished : Bool

namespace LaserMappingNode

def init : LaserMappingNode F := ⟨.init, true, lit 0, false, false⟩

/-- `timer_callback`, up to the filter update, and the transforms that it sends. -/
def timerCallback (s : LaserMappingNode F) (e : Estimate F) :
    LaserMappingNode F × List (Ros.TransformStamped F) :=
  match s.lio.syncPackages with
  | (lio, false) => ({ s with lio := lio }, [])
  | (lio, true) =>
    let s := { s with lio := lio }
    let lidarBegTime := lio.measures.lidarBegTime.value
    if s.flgFirstScan then ({ s with firstLidarTime := lidarBegTime, flgFirstScan := false }, [])
    else if e.featsEmpty then (s, [])
    else
      let s := { s with flgEkfInited := !lt (lidarBegTime - s.firstLidarTime) (lit (1 / 10)) }
      if !e.rootNode then (s, [])
      else if s.flgEkfInited && !s.gravityTfPublished then
        ({ s with gravityTfPublished := true }, [worldTf e])
      else (s, [])

inductive Input (F : Type) where
  | pointCloud2 (msg : PointCloud2)
  | livoxPacket (packet : CustomMsg F)
  | imu (msg : Imu F)
  | timer (e : Estimate F)

/-- The node and the transforms that it has sent. -/
structure Sent (F : Type) where
  node : LaserMappingNode F
  transforms : List (Ros.TransformStamped F)

/-- A callback of the node. -/
def step (cfg : Config F) (w : Sent F) : Input F → Option (Sent F)
  | .pointCloud2 msg =>
    if cfg.avia then none
    else some { w with node := { w.node with lio := w.node.lio.standardPclCbk cfg msg } }
  | .livoxPacket packet =>
    if cfg.avia then
      some { w with node := { w.node with lio := w.node.lio.livoxPclCbk cfg packet } }
    else none
  | .imu msg => some { w with node := { w.node with lio := w.node.lio.imuCbk cfg msg } }
  | .timer e =>
    let r := w.node.timerCallback e
    some ⟨r.1, w.transforms ++ r.2⟩

/-! ### Sent once -/

variable {cfg : Config F} {es : List (Input F)} {w w' : Sent F} {i : Input F} {e : Estimate F}

/-- A call of the timer sends the transform and sets the flag, or it does neither. -/
lemma timerCallback_cases (s : LaserMappingNode F) (e : Estimate F) :
    ((s.timerCallback e).2 = [] ∧
      (s.timerCallback e).1.gravityTfPublished = s.gravityTfPublished) ∨
    (s.gravityTfPublished = false ∧ (s.timerCallback e).2 = [worldTf e] ∧
      (s.timerCallback e).1.gravityTfPublished = true) := by
  simp only [timerCallback]
  split
  · exact Or.inl ⟨rfl, rfl⟩
  split_ifs with hfirst hempty hroot hsend
  · exact Or.inl ⟨rfl, rfl⟩
  · exact Or.inl ⟨rfl, rfl⟩
  · exact Or.inl ⟨rfl, rfl⟩
  · simp only [Bool.and_eq_true, Bool.not_eq_true'] at hsend
    exact Or.inr ⟨hsend.2, rfl, rfl⟩
  · exact Or.inl ⟨rfl, rfl⟩

/-- A step leaves the flag and the transforms alone, or it sets the flag and sends the transform
of its estimate. -/
lemma step_cases (h : step cfg w i = some w') :
    (w'.transforms = w.transforms ∧ w'.node.gravityTfPublished = w.node.gravityTfPublished) ∨
    ∃ e, i = .timer e ∧ w.node.gravityTfPublished = false ∧
      w'.transforms = w.transforms ++ [worldTf e] ∧ w'.node.gravityTfPublished = true := by
  cases i with
  | pointCloud2 msg =>
    obtain ⟨-, h⟩ := Option.ite_none_left_eq_some.mp h
    cases h
    exact Or.inl ⟨rfl, rfl⟩
  | livoxPacket packet =>
    obtain ⟨-, h⟩ := Option.ite_none_right_eq_some.mp h
    cases h
    exact Or.inl ⟨rfl, rfl⟩
  | imu msg =>
    cases h
    exact Or.inl ⟨rfl, rfl⟩
  | timer e =>
    cases h
    rcases w.node.timerCallback_cases e with ⟨hsent, hflag⟩ | ⟨hbefore, hsent, hflag⟩
    · exact Or.inl ⟨by simp only [hsent, List.append_nil], hflag⟩
    · exact Or.inr ⟨e, rfl, hbefore, by simp only [hsent], hflag⟩

/-- The flag says whether the transform was sent, which is that of an estimate of the history. -/
structure Once (es : List (Input F)) (w : Sent F) : Prop where
  flag : w.transforms.length = w.node.gravityTfPublished.toNat
  source : ∀ tf ∈ w.transforms, ∃ e, Input.timer e ∈ es ∧ tf = worldTf e

lemma Once.step (h : Once es w) (hw : step cfg w i = some w') : Once (es ++ [i]) w' := by
  have hsource : ∀ tf ∈ w.transforms, ∃ e, Input.timer e ∈ es ++ [i] ∧ tf = worldTf e := by
    intro tf htf
    obtain ⟨e, he, heq⟩ := h.source tf htf
    exact ⟨e, List.mem_append_left _ he, heq⟩
  rcases step_cases hw with ⟨hsent, hflag⟩ | ⟨e, rfl, hbefore, hsent, hflag⟩
  · exact ⟨by rw [hsent, hflag, h.flag], by rwa [hsent]⟩
  · refine ⟨by rw [hsent, hflag, List.length_append, h.flag, hbefore]; rfl, ?_⟩
    rw [hsent]
    intro tf htf
    rcases List.mem_append.mp htf with htf | htf
    · exact hsource tf htf
    · exact ⟨e, by simp, List.mem_singleton.mp htf⟩

lemma once_of_run (hrun : Run (step cfg) ⟨init, []⟩ es w) : Once es w := by
  induction hrun with
  | nil => exact ⟨rfl, by simp⟩
  | snoc hrun he ih => exact ih.step he

end LaserMappingNode

/-! ### The rotation -/

section Real

open Rotation
open Matrix (vec3_dotProduct)
open scoped Matrix

attribute [local instance] CppMath.real

variable {g : V3D ℝ}

noncomputable def down : V3D ℝ := ![0, 0, -1]

@[simp] lemma gWorld_eq : (gWorld : V3D ℝ) = down := by
  simp [gWorld, down]

lemma down_unit : down ⬝ᵥ down = 1 := by simp [down, dotProduct, Fin.sum_univ_three]

namespace V3D

@[simp] lemma dot_eq (v w : V3D ℝ) : v.dot w = v ⬝ᵥ w := by
  simp [dot, dotProduct, Fin.sum_univ_three]

@[simp] lemma cross_eq (v w : V3D ℝ) : v.cross w = v ⨯₃ w := by
  simp [cross, cross_apply]

@[simp] lemma norm_eq (v : V3D ℝ) : v.norm = length v := by
  simp [norm, length]

lemma normalize_eq (hg : g ≠ 0) : g.normalize = direction g := by
  have hpos : 0 < g ⬝ᵥ g := by
    rw [← length_mul_length]
    exact mul_pos (length_pos hg) (length_pos hg)
  funext i
  simp [normalize, direction, hpos, div_eq_inv_mul]

end V3D

/-- The quaternion is a unit quaternion whose rotation takes the direction of `g` downwards, up to
`2e-6` if `g` is almost vertical. -/
structure Levels (q : Ros.Quaternion ℝ) (g : V3D ℝ) : Prop where
  unit : UnitLength q
  exact : 1 / 10 ^ 6 ≤ length (direction g ⨯₃ down) →
    ofQuaternion q.x q.y q.z q.w *ᵥ direction g = down
  close : length (direction g ⨯₃ down) < 1 / 10 ^ 6 →
    length (ofQuaternion q.x q.y q.z q.w *ᵥ direction g - down) < 2 / 10 ^ 6

variable {n : V3D ℝ}

/-- The general case: the angle about the axis takes `n` onto `down`. -/
lemma angleAxis_spec (hn : n ⬝ᵥ n = 1) (hs : 0 < length (n ⨯₃ down)) {q : Ros.Quaternion ℝ}
    (hq : q = V3D.angleAxis (atan2 (length (n ⨯₃ down)) (down ⬝ᵥ n))
      fun i => (n ⨯₃ down) i / length (n ⨯₃ down)) :
    UnitLength q ∧ ofQuaternion q.x q.y q.z q.w *ᵥ n = down := by
  have hcircle : (down ⬝ᵥ n) * (down ⬝ᵥ n) + length (n ⨯₃ down) * length (n ⨯₃ down) = 1 := by
    rw [length_mul_length, cross_dotProduct_cross hn down_unit, dotProduct_comm down n]
    ring
  have hcos := cos_atan2 hcircle
  have hsin := sin_atan2 hcircle
  generalize atan2 (length (n ⨯₃ down)) (down ⬝ᵥ n) = θ at hq hcos hsin
  rw [dotProduct_comm] at hcos
  obtain ⟨t, ht⟩ : ∃ t, t * length (n ⨯₃ down) = Real.sin (θ / 2) :=
    ⟨_, div_mul_cancel₀ _ hs.ne'⟩
  have hquat : q = ⟨t * (n ⨯₃ down) 0, t * (n ⨯₃ down) 1, t * (n ⨯₃ down) 2,
      Real.cos (θ / 2)⟩ := by
    have hhalf : ((1 / 2 : ℚ) : ℝ) * θ = θ / 2 := by
      push_cast
      ring
    have hcoord : ∀ i, Real.sin (θ / 2) * ((n ⨯₃ down) i / length (n ⨯₃ down)) =
        t * (n ⨯₃ down) i := by
      intro i
      rw [← ht]
      field_simp
    simp only [hq, V3D.angleAxis, real_lit, real_sin, real_cos, hhalf, hcoord]
  rw [hquat]
  exact ⟨halfAngle_unit ht rfl, halfAngle_mulVec hn down_unit hs hcos hsin ht rfl⟩

/-- The half turn about the x axis. -/
lemma ofQuaternion_x_mulVec (n : V3D ℝ) : ofQuaternion 1 0 0 0 *ᵥ n = ![n 0, -n 1, -n 2] := by
  funext i
  fin_cases i <;> simp [ofQuaternion, Matrix.mulVec, dotProduct, Fin.sum_univ_three] <;> ring

/-- It takes a vector that is almost opposite to `down` almost there. -/
lemma halfTurn_sub_le {s : ℝ} (hn : n ⬝ᵥ n = 1) (h : 1 + n ⬝ᵥ down ≤ s) :
    (ofQuaternion 1 0 0 0 *ᵥ n - down) ⬝ᵥ (ofQuaternion 1 0 0 0 *ᵥ n - down) ≤ 2 * s := by
  rw [vec3_dotProduct] at hn h
  rw [ofQuaternion_x_mulVec, vec3_dotProduct]
  simp [down] at h ⊢
  linarith

lemma ofQuaternion_identity : ofQuaternion (0 : ℝ) 0 0 1 = 1 := by
  ext i j
  fin_cases i <;> fin_cases j <;> simp [ofQuaternion]

/-- Vectors whose distance is bounded by a small sine. -/
lemma length_sub_lt {a b : V3D ℝ} {s : ℝ} (hs : s < (1 / 10 ^ 6) ^ 2)
    (h : (a - b) ⬝ᵥ (a - b) ≤ 2 * s) : length (a - b) < 2 / 10 ^ 6 := by
  rw [length_lt_iff (by norm_num)]
  calc (a - b) ⬝ᵥ (a - b) ≤ 2 * s := h
    _ < 2 * (1 / 10 ^ 6) ^ 2 := by gcongr
    _ < (2 / 10 ^ 6) ^ 2 := by norm_num

theorem gravityQuaternion_levels (hg : g ≠ 0) : Levels (gravityQuaternion g) g := by
  have hn := direction_unit hg
  simp only [gravityQuaternion, gWorld_eq, V3D.normalize_eq hg, V3D.cross_eq, V3D.norm_eq,
    V3D.dot_eq, real_lt, decide_eq_true_eq]
  have hbound : ((1 / 10 ^ 6 : ℚ) : ℝ) = 1 / 10 ^ 6 := by norm_num
  simp only [real_lit, hbound, Rat.cast_zero, Rat.cast_one]
  split_ifs with hs hc
  · refine ⟨by simp [UnitLength], fun hle => absurd hs hle.not_gt, fun _ => ?_⟩
    rw [ofQuaternion_identity, Matrix.one_mulVec]
    rw [dotProduct_comm] at hc
    exact length_sub_lt ((length_lt_iff (by norm_num)).mp hs)
      (sub_dotProduct_sub_le hn down_unit hc.le)
  · refine ⟨by simp [UnitLength], fun hle => absurd hs hle.not_gt, fun _ => ?_⟩
    rw [dotProduct_comm, not_lt] at hc
    exact length_sub_lt ((length_lt_iff (by norm_num)).mp hs)
      (halfTurn_sub_le hn (one_add_dotProduct_le hn down_unit hc))
  · have hpos : 0 < length (direction g ⨯₃ down) :=
      lt_of_lt_of_le (by norm_num) (not_lt.mp hs)
    obtain ⟨hunit, hmap⟩ := angleAxis_spec hn hpos rfl
    exact ⟨hunit, fun _ => hmap, fun hlt => absurd hlt hs⟩

/-! ### The gravity frame of a run -/

namespace LaserMappingNode

variable {cfg : Config ℝ} {es : List (Input ℝ)} {w : Sent ℝ}

/-- At most one transform is sent, and its rotation takes the gravity of its estimate downwards. -/
theorem gravityFrame (hrun : Run (step cfg) ⟨init, []⟩ es w) :
    w.transforms.length ≤ 1 ∧
      ∀ tf ∈ w.transforms, ∃ e, Input.timer e ∈ es ∧ tf = worldTf e ∧
        (e.grav ≠ 0 → Levels tf.transform.rotation e.grav) := by
  have honce := once_of_run hrun
  refine ⟨honce.flag ▸ Bool.toNat_le _, fun tf htf => ?_⟩
  obtain ⟨e, he, rfl⟩ := honce.source tf htf
  exact ⟨e, he, rfl, gravityQuaternion_levels⟩

/-- Gravity points along the x axis. -/
noncomputable def sideways : Estimate ℝ := ⟨false, true, ![1, 0, 0], ⟨2, 0⟩⟩

noncomputable def quietImu (sec : ℤ) : Imu ℝ := ⟨⟨sec, 0⟩, ⟨0, 0, 0⟩, ⟨0, 0, 0⟩⟩

/-- Two empty scans, each with an IMU message and a call of the timer. -/
noncomputable def twoScans : List (Input ℝ) :=
  [.pointCloud2 (cloudAt 1), .imu (quietImu 1), .timer sideways,
    .pointCloud2 (cloudAt 2), .imu (quietImu 2), .timer sideways]

/-- The second group sends the transform. -/
lemma transforms_twoScans :
    (exec (step (.velodyne fun _ => [])) ⟨init, []⟩ twoScans).map Sent.transforms =
      some [worldTf sideways] := by
  norm_num [twoScans, exec, step, Config.velodyne, cloudAt, quietImu, init, Lio.init,
    Lio.standardPclCbk, Lio.glitch, Lio.selfSync, Lio.leakGuard, Lio.pushScan, getTimeSec,
    Lio.imuCbk, Lio.imuStamp, getRosTime, timerCallback, Lio.syncPackages, Lio.stage,
    Lio.scanEnd, Lio.takeImu, sideways]

theorem gravityFrame_sideways :
    ∃ w, Run (step (.velodyne fun _ => [])) ⟨init, []⟩ twoScans w ∧
      w.transforms = [worldTf sideways] ∧
      Levels (worldTf sideways).transform.rotation sideways.grav := by
  obtain ⟨w, hexec, hsent⟩ := Option.map_eq_some_iff.mp transforms_twoScans
  have hrun := run_iff_exec.mpr hexec
  obtain ⟨-, hlevels⟩ := gravityFrame hrun
  obtain ⟨e, he, -, hlevel⟩ := hlevels (worldTf sideways) (by simp [hsent])
  obtain rfl : e = sideways := by simpa [twoScans] using he
  exact ⟨w, hrun, hsent, hlevel (by simp [sideways])⟩

end LaserMappingNode

end Real

end FastLio
