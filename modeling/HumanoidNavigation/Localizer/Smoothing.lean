import HumanoidNavigation.Localizer.Trust
import HumanoidNavigation.Numeric.Blend
import HumanoidNavigation.Numeric.PyReal
import HumanoidNavigation.Rotation.RigidMotion

/-!
# Smoothing of the published pose

With `use_kalman` the published pose is the state of four scalar filters. In exact arithmetic each
step of a filter moves its state a part of the way to the measurement, the part being strictly
between zero and one. So the published position stays in the interval that the seed of the latest
lock and the confident measurements since span (`Watched.measured`), its height is that of the
floor, and the yaw moves along the shorter arc. The circumference is that of the code, `2 * np.pi`.
-/

namespace Localizer

open PyFloat Except Ros Transition

/-! ### What a tick does to the published pose -/

section

variable {F : Type} [PyFloat F] {lib : ThirdParty F} {cfg : Config F} {mapData : MapData F}
  {n n' : Node F} {full scan : List (Vector3 F)} {T : Mat4 F} {c : IcpResult F} {tick : Tick F}
  {o : Outcome F} {w w' : World F}

/-- The tracking candidate of the tick passes the confidence gate. -/
def Tick.confident (cfg : Config F) (tick : Tick F) : Bool :=
  match tick.trackIcp with
  | .ok c => le cfg.confidenceTh c.fitness
  | .error _ => false

namespace Node

/-- What a tick with a scan does to the filters and the floor. -/
inductive SmoothCase (lib : ThirdParty F) (cfg : Config F) (n : Node F) (tick : Tick F)
    (n' : Node F) : Outcome F → Prop where
  | weak {T : Mat4 F} (hinit' : n'.initialized = false) (hvars : n'.filter.kfX = n.filter.kfX ∧
      n'.filter.kfY = n.filter.kfY ∧ n'.filter.kfZ = n.filter.kfZ ∧
      n'.filter.kfYaw = n.filter.kfYaw) : SmoothCase lib cfg n tick n' (.weak T)
  /-- A candidate seeds the filters, with the height of the floor. -/
  | locked {T : Mat4 F} {f : PoseFilter F} {o : Outcome F}
      (ho : o = .locked T ∨ o = .relocalized T) (hinit' : n'.initialized = true)
      (hseed : n.filter.seedKalmansFromT lib (n'.withFloorZ T) = .ok f)
      (hf : n'.filter = { f with tPublished := n'.withFloorZ T }) :
      SmoothCase lib cfg n tick n' o
  /-- A confident candidate is smoothed in. -/
  | smoothed {T : Mat4 F} (hinit : n.initialized = true) (hinit' : n'.initialized = true)
      (hconfident : tick.confident cfg = true) (hfloor : n'.floorZWorld = n.floorZWorld)
      (hf : n.filter.smoothTf lib cfg (n'.withFloorZ T) = .ok n'.filter) :
      SmoothCase lib cfg n tick n' (.tracked T)
  | kept {o : Outcome F} (hinit : n.initialized = true) (hinit' : n'.initialized = true)
      (ho : o = .held ∨ (∃ T, o = .tracked T) ∧ tick.confident cfg = false)
      (hfloor : n'.floorZWorld = n.floorZWorld) (hf : n'.filter = n.filter) :
      SmoothCase lib cfg n tick n' o

/-- It depends on the filters, the floor and `_initialized` alone. -/
lemma SmoothCase.congr {m : Node F} (h : SmoothCase lib cfg m tick n' o)
    (hf : m.filter = n.filter) (hinit : m.initialized = n.initialized)
    (hfloor : m.floorZWorld = n.floorZWorld) : SmoothCase lib cfg n tick n' o := by
  cases h with
  | weak hinit' hvars => exact .weak hinit' (hf ▸ hvars)
  | locked ho hinit' hseed hf' => exact .locked ho hinit' (hf ▸ hseed) hf'
  | smoothed hm hinit' hconfident hfl hf' =>
    exact .smoothed (hinit ▸ hm) hinit' hconfident (hfl.trans hfloor) (hf ▸ hf')
  | kept hm hinit' ho hfl hf' =>
    exact .kept (hinit ▸ hm) hinit' ho (hfl.trans hfloor) (hf'.trans hf)

lemma SmoothCase.ne_idle (h : SmoothCase lib cfg n tick n' o) : o ≠ .idle := by
  rintro rfl
  cases h with
  | locked ho => simp at ho
  | kept _ _ ho => simp at ho

lemma smoothCase_of_firstLocalize (hinit : n.initialized = false)
    (h : n.firstLocalize lib cfg full scan tick.globalIcp = .ok (n', o)) :
    SmoothCase lib cfg n tick n' o := by
  obtain ⟨floorZ, g, -, ⟨-, rfl, _, hlock, rfl⟩ | ⟨-, rfl, rfl⟩⟩ := firstLocalize_ok h
  · obtain ⟨f, localMap, hseed, -, rfl⟩ := lock_ok hlock
    exact .locked (Or.inl rfl) rfl hseed rfl
  · exact .weak hinit ⟨rfl, rfl, rfl, rfl⟩

lemma smoothCase_of_acceptTrack (hinit : n.initialized = true) (hc : tick.trackIcp = .ok c)
    (h : n.acceptTrack lib cfg full c = .ok n') : SmoothCase lib cfg n tick n' (.tracked c.T) := by
  obtain ⟨filter, localMap, hf, -, rfl⟩ := acceptTrack_ok h
  have hconfident : tick.confident cfg = le cfg.confidenceTh c.fitness := by
    rw [Tick.confident, hc]
  rcases smoothConfident_ok hf with ⟨hle, hf⟩ | ⟨hle, rfl⟩
  · exact .smoothed hinit hinit (hconfident.trans hle) rfl hf
  · exact .kept hinit hinit (Or.inr ⟨⟨_, rfl⟩, hconfident.trans hle⟩) rfl rfl

lemma smoothCase_of_rejectTrack (hinit : n.initialized = true)
    (h : n.rejectTrack lib cfg full tick.globalIcp = .ok (n', o)) :
    SmoothCase lib cfg n tick n' o := by
  rcases rejectTrack_ok h with ⟨g, _, -, -, -, rfl, hlock, rfl⟩ | ⟨-, rfl, rfl⟩
  · obtain ⟨f, localMap, hseed, -, rfl⟩ := lock_ok hlock
    exact .locked (Or.inr rfl) hinit hseed rfl
  · exact .kept hinit hinit (Or.inl rfl) rfl rfl

lemma smoothCase_of_ok (h : n.firstLocalizeOrTrack lib cfg full scan tick = .ok (n', o)) :
    SmoothCase lib cfg n tick n' o := by
  rcases firstLocalizeOrTrack_ok h with ⟨hinit, h⟩ | ⟨hinit, h⟩
  · obtain ⟨c, hc, ⟨-, rfl, hacc⟩ | ⟨-, hrej⟩⟩ := track_ok h
    · exact (smoothCase_of_acceptTrack (n := { n with settleTicks := n.settleTicks - 1 }) hinit hc
        hacc).congr rfl rfl rfl
    · exact (smoothCase_of_rejectTrack (n := { n with settleTicks := n.settleTicks - 1 }) hinit
        hrej).congr rfl rfl rfl
  · exact smoothCase_of_firstLocalize hinit h

omit [PyFloat F] in
/-- `_try_get_gravity_tf` changes no more than the rotation to the world. -/
lemma tryGetGravityTf_eq (lib : ThirdParty F) (n : Node F) (q : Option (Quaternion F)) :
    ∃ R, n.tryGetGravityTf lib q = { n with camToWorldR := R } := by
  simp only [tryGetGravityTf]
  split
  · split
    · exact ⟨_, rfl⟩
    · exact ⟨_, rfl⟩
  · exact ⟨_, rfl⟩

/-- A tick leaves the filters, the floor and `_initialized`, or it works on a scan. -/
lemma smoothCase_of_localize {pubs : List (Publication F)}
    (h : n.localize lib cfg mapData tick = .ok (n', pubs, o)) :
    (o = .idle ∧ n'.filter = n.filter ∧ n'.initialized = n.initialized ∧
      n'.floorZWorld = n.floorZWorld) ∨ SmoothCase lib cfg n tick n' o := by
  simp only [localize] at h
  split_ifs at h with hfrozen hsent
  · cases h
    exact Or.inl ⟨rfl, rfl, rfl, rfl⟩
  · obtain ⟨ts, -, h⟩ := bind_eq_ok.mp h
    cases h
    exact Or.inl ⟨rfl, rfl, rfl, rfl⟩
  · obtain ⟨⟨m, pubs', o'⟩, hm, h⟩ := bind_eq_ok.mp h
    cases h
    obtain ⟨R, hR⟩ := tryGetGravityTf_eq lib { n with mapPublished := true }
      tick.gravityTf
    rw [hR] at hm
    rcases localizeCloud_ok hm with ⟨rfl, rfl, -⟩ | ⟨-, -, scan, -, ts, -, -, -, -, hscan, -⟩
    · exact Or.inl ⟨rfl, rfl, rfl, rfl⟩
    · exact Or.inr ((smoothCase_of_ok (localizeScan_ok hscan).1).congr rfl rfl rfl)

end Node

/-! ### The measurements since the latest lock -/

/-- The localizer, with the candidate of its latest lock and the confident candidates that it
accepted since. -/
structure Watched (F : Type) where
  world : World F
  measured : List (Mat4 F) := []

/-- The measurements after a tick. -/
def measuredAfter (cfg : Config F) (tick : Tick F) (measured : List (Mat4 F)) :
    Outcome F → List (Mat4 F)
  | .locked T | .relocalized T => [T]
  | .tracked T => if tick.confident cfg then measured ++ [T] else measured
  | .idle | .weak _ | .held => measured

namespace Watched

def init (lib : ThirdParty F) (cfg : Config F) (mapData : MapData F) : Watched F where
  world := .init lib cfg mapData

def measuredBy (lib : ThirdParty F) (cfg : Config F) (mapData : MapData F) (s : Watched F) :
    Event F → List (Mat4 F)
  | .tick tick =>
    match s.world.node.localize lib cfg mapData tick with
    | .ok (_, _, o) => measuredAfter cfg tick s.measured o
    | .error _ => s.measured
  | .cloud _ _ | .odom _ _ => s.measured

def step (lib : ThirdParty F) (cfg : Config F) (mapData : MapData F) (s : Watched F)
    (e : Event F) : Option (Watched F) :=
  (s.world.step lib cfg mapData e).map fun w => ⟨w, s.measuredBy lib cfg mapData e⟩

end Watched

end

/-! ### Filter steps -/

section Real

attribute [local instance] PyFloat.real

variable {lib : ThirdParty ℝ} {cfg : Config ℝ} {mapData : MapData ℝ} {k k' : KalmanScalar ℝ}
  {f f' : PoseFilter ℝ} {T : Mat4 ℝ} {z : ℝ} {s s' : Watched ℝ} {e : Event ℝ} {es : List (Event ℝ)}

namespace KalmanScalar

/-- `K` of the next step -/
noncomputable def gain (k : KalmanScalar ℝ) : ℝ := (k.P + k.Q) / (k.P + k.Q + k.R)

/-- A step moves the state a part of the way to the measurement `z`. -/
structure Moves (k : KalmanScalar ℝ) (z : ℝ) (k' : KalmanScalar ℝ) : Prop where
  gain_pos : 0 < k.gain
  gain_lt_one : k.gain < 1
  x : k'.x = k.x + k.gain * (z - k.x)
  variance_pos : 0 < k'.P
  variance_lt : k'.P < k'.R

/-- The variances are such that the filter works: that of the process is not negative, that of a
measurement positive, and so is that of the state. -/
structure Proper (k : KalmanScalar ℝ) : Prop where
  state : 0 < k.P
  process : 0 ≤ k.Q
  measurement : 0 < k.R

lemma Proper.step (hk : k.Proper) (h : k.step z = .ok k') : k.Moves z k' ∧ k'.Proper := by
  have hP : 0 < k.P + k.Q := add_pos_of_pos_of_nonneg hk.state hk.process
  have hsum : 0 < k.P + k.Q + k.R := add_pos hP hk.measurement
  have hgain : 0 < k.gain := div_pos hP hsum
  have hgain' : 1 - k.gain = k.R / (k.P + k.Q + k.R) := by
    rw [gain]
    field_simp
    ring
  have hlt : k.gain < 1 := by
    have : 0 < 1 - k.gain := hgain' ▸ div_pos hk.measurement hsum
    linarith
  obtain ⟨K, hK, h⟩ := bind_eq_ok.mp h
  replace hK : (if k.P + k.Q + k.R = 0 then Except.error PyError.zeroDivisionError
    else .ok ((k.P + k.Q) / (k.P + k.Q + k.R))) = .ok K := hK
  rw [if_neg hsum.ne'] at hK
  replace hK : k.gain = K := Except.ok.inj hK
  cases h
  subst hK
  have hP' : (lit 1 - k.gain) * (k.P + k.Q) = k.R * k.gain := by
    show ((1 : ℚ) - k.gain : ℝ) * (k.P + k.Q) = k.R * k.gain
    rw [Rat.cast_one, hgain', gain]
    ring
  have hpos : 0 < k.R * k.gain := mul_pos hk.measurement hgain
  refine ⟨⟨hgain, hlt, rfl, ?_, ?_⟩, ?_, hk.process, hk.measurement⟩
  · exact hP' ▸ hpos
  · show (lit 1 - k.gain) * (k.P + k.Q) < k.R
    rw [hP']
    exact mul_lt_of_lt_one_right hk.measurement hlt
  · exact hP' ▸ hpos

lemma Proper.reset (hk : k.Proper) (x₀ : ℝ) : (k.reset x₀).Proper := by
  refine ⟨?_, hk.process, hk.measurement⟩
  show (0 : ℝ) < ((1 : ℚ) : ℝ)
  norm_num

/-- A step of the yaw filter, for the measurement `yaw`: it moves along the shorter arc, of the
signed length `arc`, and leaves the part `1 - K` of the circular distance. -/
structure Turns (k : KalmanScalar ℝ) (yaw arc : ℝ) (k' : KalmanScalar ℝ) : Prop where
  moves : k.Moves (k.x + arc) k'
  reaches : ((k.x + arc : ℝ) : AddCircle (lit 2 * pi : ℝ)) = yaw
  shorter : |arc| = dist (k.x : AddCircle (lit 2 * pi : ℝ)) yaw
  dist : dist (k'.x : AddCircle (lit 2 * pi : ℝ)) yaw =
    (1 - k.gain) * dist (k.x : AddCircle (lit 2 * pi : ℝ)) yaw

end KalmanScalar

lemma twoPi_pos : (0 : ℝ) < lit 2 * pi := by
  show (0 : ℝ) < ((2 : ℚ) : ℝ) * ((884279719003555 / 281474976710656 : ℚ) : ℝ)
  norm_num

lemma wrap_eq_shortArc (yaw x : ℝ) :
    mod (yaw - x + pi) (lit 2 * pi) - pi = shortArc (lit 2 * pi) (yaw - x) := by
  have hhalf : (lit 2 * pi : ℝ) / 2 = pi := by
    show ((2 : ℚ) : ℝ) * pi / 2 = pi
    rw [Rat.cast_ofNat]
    ring
  rw [shortArc, hhalf]
  rfl

lemma KalmanScalar.Moves.turns {yaw : ℝ}
    (h : k.Moves (k.x + shortArc (lit 2 * pi) (yaw - k.x)) k') :
    k.Turns yaw (shortArc (lit 2 * pi) (yaw - k.x)) k' := by
  have hreaches : ((k.x + shortArc (lit 2 * pi) (yaw - k.x) : ℝ) :
      AddCircle (lit 2 * pi : ℝ)) = yaw := by
    rw [AddCircle.coe_add, coe_shortArc, AddCircle.coe_sub]
    abel
  refine ⟨h, hreaches, abs_shortArc twoPi_pos _ _, ?_⟩
  have hx : k'.x = k.x + k.gain * shortArc (lit 2 * pi) (yaw - k.x) := by
    rw [h.x]
    ring
  rw [← hreaches, hx]
  exact dist_blend twoPi_pos (abs_shortArc_le twoPi_pos _) h.gain_pos.le h.gain_lt_one.le

namespace PoseFilter

/-- The four filters work. -/
structure Proper (f : PoseFilter ℝ) : Prop where
  x : f.kfX.Proper
  y : f.kfY.Proper
  z : f.kfZ.Proper
  yaw : f.kfYaw.Proper

/-- One step of the four filters, for the measured pose `T`; the published pose is made of their
states. -/
structure Smooths (lib : ThirdParty ℝ) (f : PoseFilter ℝ) (T : Mat4 ℝ) (f' : PoseFilter ℝ) :
    Prop where
  x : f.kfX.Moves (T 0 3) f'.kfX
  y : f.kfY.Moves (T 1 3) f'.kfY
  z : f.kfZ.Moves (T 2 3) f'.kfZ
  yaw : ∃ yaw arc, yawOf lib T = .ok yaw ∧ f.kfYaw.Turns yaw arc f'.kfYaw
  published : f'.tPublished = poseOf (lib.fromYaw f'.kfYaw.x) ⟨f'.kfX.x, f'.kfY.x, f'.kfZ.x⟩

lemma Proper.smooth (hf : f.Proper) (hkalman : cfg.useKalman = true)
    (h : f.smoothTf lib cfg T = .ok f') : f.Smooths lib T f' ∧ f'.Proper := by
  rw [smoothTf, if_pos hkalman] at h
  obtain ⟨newYaw, hnew, h⟩ := bind_eq_ok.mp h
  obtain ⟨kfX, hx, h⟩ := bind_eq_ok.mp h
  obtain ⟨kfY, hy, h⟩ := bind_eq_ok.mp h
  obtain ⟨kfZ, hz, h⟩ := bind_eq_ok.mp h
  obtain ⟨kfYaw, hyaw, h⟩ := bind_eq_ok.mp h
  cases h
  obtain ⟨hmx, hpx⟩ := hf.x.step hx
  obtain ⟨hmy, hpy⟩ := hf.y.step hy
  obtain ⟨hmz, hpz⟩ := hf.z.step hz
  obtain ⟨hmyaw, hpyaw⟩ := hf.yaw.step hyaw
  rw [wrap_eq_shortArc] at hmyaw
  exact ⟨⟨hmx, hmy, hmz, ⟨newYaw, _, hnew, hmyaw.turns⟩, rfl⟩, hpx, hpy, hpz, hpyaw⟩

lemma Proper.seed (hf : f.Proper) (h : f.seedKalmansFromT lib T = .ok f') :
    f'.Proper ∧ f'.kfX.x = T 0 3 ∧ f'.kfY.x = T 1 3 ∧ f'.kfZ.x = T 2 3 := by
  obtain ⟨yaw, -, h⟩ := bind_eq_ok.mp h
  cases h
  exact ⟨⟨hf.x.reset _, hf.y.reset _, hf.z.reset _, hf.yaw.reset _⟩, rfl, rfl, rfl⟩

end PoseFilter

/-! ### Runs -/

namespace Watched

/-- The published position is that of the filters. It is in the interval of the measurements, at
the height of the floor, and was broadcast. -/
structure InHull (lib : ThirdParty ℝ) (s : Watched ℝ) : Prop where
  position : s.world.node.filter.tPublished 0 3 = s.world.node.filter.kfX.x ∧
    s.world.node.filter.tPublished 1 3 = s.world.node.filter.kfY.x ∧
    s.world.node.filter.tPublished 2 3 = s.world.node.filter.kfZ.x
  x : Spanned (s.measured.map fun T => T 0 3) s.world.node.filter.kfX.x
  y : Spanned (s.measured.map fun T => T 1 3) s.world.node.filter.kfY.x
  z : s.world.node.filter.kfZ.x = -s.world.node.floorZWorld
  broadcast : ∃ b, s.world.broadcasts.getLast? = some b ∧
    toTransform lib s.world.node.filter.tPublished = .ok b.transform.transform

/-- The filters work and, once the node is initialized, hold a pose in the hull. -/
structure Smooth (lib : ThirdParty ℝ) (s : Watched ℝ) : Prop where
  proper : s.world.node.filter.Proper
  inHull : s.world.node.initialized = true → s.InHull lib

lemma smooth_init (hQ : 0 ≤ cfg.kalmanProcessVar) (hR : 0 < cfg.kalmanMeasVar) :
    (init lib cfg mapData).Smooth lib := by
  have hP : (0 : ℝ) < lit 1 := by
    show (0 : ℝ) < ((1 : ℚ) : ℝ)
    norm_num
  exact ⟨⟨⟨hP, hQ, hR⟩, ⟨hP, hQ, hR⟩, ⟨hP, hQ, hR⟩, ⟨hP, hQ, hR⟩⟩, fun h => by cases h⟩

/-- A step that leaves the filters and the floor. -/
lemma Smooth.congr {w : World ℝ} (h : s.Smooth lib)
    (hf : w.node.filter = s.world.node.filter)
    (hinit : w.node.initialized = s.world.node.initialized)
    (hfloor : w.node.floorZWorld = s.world.node.floorZWorld)
    (hb : w.broadcasts = s.world.broadcasts ∨ ∃ b, w.broadcasts.getLast? = some b ∧
      toTransform lib w.node.filter.tPublished = .ok b.transform.transform) :
    Smooth lib ⟨w, s.measured⟩ := by
  refine ⟨hf ▸ h.proper, fun hw => ?_⟩
  have hhull := h.inHull (hinit ▸ hw)
  refine ⟨hf ▸ hhull.position, hf ▸ hhull.x, hf ▸ hhull.y, ?_, ?_⟩
  · rw [hf, hfloor]
    exact hhull.z
  · rcases hb with hb | hb
    · rw [hf, hb]
      exact hhull.broadcast
    · exact hb

/-- Seeded filters hold the pose that they were seeded with. -/
lemma Smooth.seeded {w : World ℝ} {f : PoseFilter ℝ} (h : s.Smooth lib)
    (hseed : s.world.node.filter.seedKalmansFromT lib (w.node.withFloorZ T) = .ok f)
    (hf : w.node.filter = { f with tPublished := w.node.withFloorZ T })
    (hb : ∃ b, w.broadcasts.getLast? = some b ∧
      toTransform lib w.node.filter.tPublished = .ok b.transform.transform) :
    Smooth lib ⟨w, [T]⟩ := by
  obtain ⟨hproper, hx, hy, hz⟩ := h.proper.seed hseed
  refine ⟨?_, fun _ => ⟨?_, ?_, ?_, ?_, hb⟩⟩
  · rw [hf]
    exact ⟨hproper.x, hproper.y, hproper.z, hproper.yaw⟩
  · rw [hf]
    exact ⟨hx.symm, hy.symm, hz.symm⟩
  · rw [hf]
    exact spanned_of_mem (List.mem_singleton.mpr hx)
  · rw [hf]
    exact spanned_of_mem (List.mem_singleton.mpr hy)
  · rw [hf]
    exact hz

/-- A step of the filters moves the position a part of the way to a measurement that is added, and
keeps the height, which is also the measured one. -/
lemma Smooth.smoothed {w : World ℝ} (h : s.Smooth lib) (hkalman : cfg.useKalman = true)
    (hinit : s.world.node.initialized = true)
    (hfloor : w.node.floorZWorld = s.world.node.floorZWorld)
    (hf : s.world.node.filter.smoothTf lib cfg (w.node.withFloorZ T) = .ok w.node.filter)
    (hb : ∃ b, w.broadcasts.getLast? = some b ∧
      toTransform lib w.node.filter.tPublished = .ok b.transform.transform) :
    Smooth lib ⟨w, s.measured ++ [T]⟩ := by
  have hhull := h.inHull hinit
  obtain ⟨hsmooths, hproper⟩ := h.proper.smooth hkalman hf
  have hspan (i : Fin 4) {x : ℝ} (hx : Spanned (s.measured.map fun T => T i 3) x) :
      Spanned ((s.measured ++ [T]).map fun T => T i 3) x :=
    hx.mono (List.map_subset _ (List.subset_append_left _ _))
  have hmem (i : Fin 4) : T i 3 ∈ (s.measured ++ [T]).map fun T => T i 3 :=
    List.mem_map_of_mem (List.mem_append_right _ (List.mem_singleton_self T))
  refine ⟨hproper, fun _ => ⟨?_, ?_, ?_, ?_, hb⟩⟩
  · rw [hsmooths.published]
    exact ⟨rfl, rfl, rfl⟩
  · rw [hsmooths.x.x]
    exact (hspan 0 hhull.x).blend (hmem 0) hsmooths.x.gain_pos.le hsmooths.x.gain_lt_one.le
  · rw [hsmooths.y.x]
    exact (hspan 1 hhull.y).blend (hmem 1) hsmooths.y.gain_pos.le hsmooths.y.gain_lt_one.le
  · have hmeas : w.node.withFloorZ T 2 3 = -s.world.node.floorZWorld := by
      rw [← hfloor]
      rfl
    rw [hsmooths.z.x, hhull.z, hmeas, hfloor, sub_self, mul_zero, add_zero]

/-- What the case of a tick does to a position in the hull. -/
lemma Smooth.tick {w : World ℝ} {tick : Tick ℝ} {o : Outcome ℝ} (h : s.Smooth lib)
    (hkalman : cfg.useKalman = true)
    (hcase : Node.SmoothCase lib cfg s.world.node tick w.node o)
    (hb : ∃ b, w.broadcasts.getLast? = some b ∧
      toTransform lib w.node.filter.tPublished = .ok b.transform.transform) :
    Smooth lib ⟨w, measuredAfter cfg tick s.measured o⟩ := by
  cases hcase with
  | weak hinit' hvars =>
    obtain ⟨hx, hy, hz, hyaw⟩ := hvars
    refine ⟨⟨hx ▸ h.proper.x, hy ▸ h.proper.y, hz ▸ h.proper.z, hyaw ▸ h.proper.yaw⟩, ?_⟩
    intro hinit
    cases hinit.symm.trans hinit'
  | @locked T f o ho hinit' hseed hf =>
    have hmeasured : measuredAfter cfg tick s.measured o = [T] := by
      rcases ho with rfl | rfl
      · rfl
      · rfl
    rw [hmeasured]
    exact h.seeded hseed hf hb
  | @smoothed T hinit hinit' hconfident hfloor hf =>
    have hmeasured : measuredAfter cfg tick s.measured (.tracked T) = s.measured ++ [T] :=
      if_pos hconfident
    rw [hmeasured]
    exact h.smoothed hkalman hinit hfloor hf hb
  | kept hinit hinit' ho hfloor hf =>
    have hmeasured : measuredAfter cfg tick s.measured o = s.measured := by
      rcases ho with rfl | ⟨⟨T, rfl⟩, hconfident⟩
      · rfl
      · exact if_neg (by simp [hconfident])
    rw [hmeasured]
    exact h.congr hf (hinit'.trans hinit.symm) hfloor (Or.inr hb)

lemma Smooth.step (h : s.Smooth lib) (hkalman : cfg.useKalman = true)
    (he : s.step lib cfg mapData e = some s') : s'.Smooth lib := by
  obtain ⟨w, hw, rfl⟩ := Option.map_eq_some_iff.mp he
  cases e with
  | cloud pts stamp | odom pos stamp =>
    cases hw
    exact h.congr rfl rfl rfl (Or.inl rfl)
  | tick tick =>
    simp only [World.step] at hw
    split at hw
    · next n pubs o hok =>
      cases hw
      simp only [measuredBy, hok]
      have hb (ts : TransformStamped ℝ) (hts : toTransform lib n.filter.tPublished =
          .ok ts.transform) (hpubs : pubs.filterMap Publication.transform = [ts]) :
          ∃ b, (s.world.broadcasts ++ (pubs.filterMap Publication.transform).map fun ts =>
            Broadcast.mk ts (s.world.accepted ++ o.accepted.toList)).getLast? = some b ∧
              toTransform lib n.filter.tPublished = .ok b.transform.transform := by
        rw [hpubs, List.map_singleton, List.getLast?_concat]
        exact ⟨_, rfl, hts⟩
      rcases Node.smoothCase_of_localize hok with ⟨rfl, hf, hinit, hfloor⟩ | hcase
      · refine h.congr (w := ⟨n, _, _⟩) hf hinit hfloor ?_
        rcases Node.localize_ok hok with ⟨-, -, hpubs, -⟩ | ⟨-, -, -, ts, hts, hpubs⟩ |
          ⟨m, scan, ts, -, -, hscan, hpubs⟩
        · exact Or.inl (by simp [hpubs])
        · exact Or.inr (hb ts (hf ▸ hts) hpubs)
        · exact Or.inr (hb ts (Node.localizeScan_ok hscan).2 hpubs)
      · rcases Node.localize_ok hok with ⟨-, hidle, -⟩ | ⟨-, hidle, -⟩ |
          ⟨m, scan, ts, -, -, hscan, hpubs⟩
        · exact absurd hidle hcase.ne_idle
        · exact absurd hidle hcase.ne_idle
        · exact h.tick (w := ⟨n, _, _⟩) hkalman hcase (hb ts (Node.localizeScan_ok hscan).2 hpubs)
    · cases hw

/-- With `use_kalman`, a process variance that is not negative and a positive measurement variance,
in every run and exact arithmetic: the variances of the filters are positive. Once the node is
initialized, the pose it broadcast last has `x` and `y` in the interval that the seed of the
latest lock and the confident candidates accepted since span, and as `z` the negated height of the
floor. And whatever pose is smoothed in next, each filter moves with a gain strictly between zero
and one to a variance below that of the measurement, and the yaw along the shorter arc, such that
`1 - K` of its circular distance remains. -/
theorem smooth_of_run (hkalman : cfg.useKalman = true) (hQ : 0 ≤ cfg.kalmanProcessVar)
    (hR : 0 < cfg.kalmanMeasVar)
    (hrun : Run (step lib cfg mapData) (init lib cfg mapData) es s) :
    s.world.node.filter.Proper ∧
    (s.world.node.initialized = true → ∃ b, s.world.broadcasts.getLast? = some b ∧
      Spanned (s.measured.map fun T => T 0 3) b.transform.transform.translation.x ∧
      Spanned (s.measured.map fun T => T 1 3) b.transform.transform.translation.y ∧
      b.transform.transform.translation.z = -s.world.node.floorZWorld) ∧
    ∀ T f', s.world.node.filter.smoothTf lib cfg T = .ok f' →
      s.world.node.filter.Smooths lib T f' := by
  have h : s.Smooth lib :=
    hrun.invariant_state (smooth_init hQ hR) fun _ _ _ hs he => hs.step hkalman he
  refine ⟨h.proper, fun hinit => ?_, fun T f' hf => (h.proper.smooth hkalman hf).1⟩
  have hhull := h.inHull hinit
  obtain ⟨hx, hy, hz⟩ := hhull.position
  obtain ⟨b, hb, ht⟩ := hhull.broadcast
  obtain ⟨q, -, ht⟩ := bind_eq_ok.mp ht
  refine ⟨b, hb, ?_, ?_, ?_⟩
  · rw [← Except.ok.inj ht]
    exact hx ▸ hhull.x
  · rw [← Except.ok.inj ht]
    exact hy ▸ hhull.y
  · rw [← Except.ok.inj ht]
    exact hz.trans hhull.z

/-! ### A turn after the lock -/

/-- Library functions as they are for points on the floor that are more than a voxel apart, for
rotations about the z axis and for the quaternion of the identity. -/
noncomputable def onFloor : ThirdParty ℝ where
  quantile _ _ := .ok 0
  voxelDownSample pts _ := .ok pts
  estimateNormals pts _ := .ok (pts.map fun _ => ⟨0, 0, 1⟩)
  query tree p := ((tree.points.map fun q =>
    √((p.x - q.x) ^ 2 + (p.y - q.y) ^ 2 + (p.z - q.z) ^ 2)).min?).getD 0
  asEuler R degrees :=
    .ok ⟨0, 0, Complex.arg ⟨R 0 0, R 1 0⟩ * if degrees then lit 180 / Real.pi else 1⟩
  fromYaw := Rotation.aboutZ
  fromEulerDeg angles := Rotation.aboutZ (angles.z * Real.pi / lit 180)
  asQuat R := .ok ⟨0, 0, Real.sin (Complex.arg ⟨R 0 0, R 1 0⟩ / lit 2),
    Real.cos (Complex.arg ⟨R 0 0, R 1 0⟩ / lit 2)⟩
  fromQuat _ := .ok 1
  slerp _ _ _ := .ok 1
  deg2rad x := x * Real.pi / lit 180

/-- A map without points. -/
def noMap : MapData ℝ := ⟨[], [], ⟨[], ⟨[]⟩, [], ⟨[]⟩, [], none⟩⟩

/-- A cloud of points a metre apart. -/
def row : List (Vector3 ℝ) := (List.range 200).map fun k : ℕ => ⟨k, 0, 0⟩

/-- A candidate with the best fitness. -/
noncomputable def candidate (T : Mat4 ℝ) : Except PyError (IcpResult ℝ) := .ok ⟨T, 1, 0⟩

/-- The node right after a lock at the origin, with the row of points. -/
structure AtOrigin (m : LocalMap ℝ) (n : Node ℝ) : Prop where
  initialized : n.initialized = true
  tMapCam : n.tMapCam = 1
  settling : 0 < n.settleTicks
  camToWorldR : n.camToWorldR = some 1
  latestCloud : n.latestCloud = some row
  localMap : n.localMap = m
  proper : n.filter.Proper

lemma goodAttitude_onFloor (T : Mat4 ℝ) : goodAttitude onFloor {} T = .ok true := by
  have hwrap : (wrap 0 : ℝ) = 0 := by
    simp [wrap]
    norm_num
  simp [goodAttitude, rollPitchDeg, onFloor, hwrap, bind, Except.bind, pure, Except.pure]

lemma firstGates_origin : Node.firstGates onFloor {} ⟨1, 1, 0⟩ = .ok true := by
  refine bind_eq_ok.mpr ⟨true, goodAttitude_onFloor _, congrArg Except.ok ?_⟩
  simp [planarNorm]
  norm_num

/-- The rotation of the gravity transform leaves the points where they are, and none is above the
ceiling. -/
lemma prepareScan_row : ∃ pubs, Node.prepareScan onFloor {} 1 row = .ok (row, pubs) := by
  have hrow : row.map (fun p => (⟨(1 : Mat3 ℝ) 0 0 * p.x + (1 : Mat3 ℝ) 0 1 * p.y +
      (1 : Mat3 ℝ) 0 2 * p.z, (1 : Mat3 ℝ) 1 0 * p.x + (1 : Mat3 ℝ) 1 1 * p.y +
      (1 : Mat3 ℝ) 1 2 * p.z, (1 : Mat3 ℝ) 2 0 * p.x + (1 : Mat3 ℝ) 2 1 * p.y +
      (1 : Mat3 ℝ) 2 2 * p.z⟩ : Vector3 ℝ)) = row := by
    refine List.map_id'' (fun p => ?_) row
    simp
  have hfilter : row.filter (fun p => le p.z ((0 : ℝ) + ({} : Config ℝ).maxCeilingAboveFloor)) =
      row := by
    refine List.filter_eq_self.mpr fun p hp => ?_
    obtain ⟨k, -, rfl⟩ := List.mem_map.mp hp
    simp
    norm_num
  refine ⟨_, bind_eq_ok.mpr ⟨0, rfl, bind_eq_ok.mpr ⟨row, ?_, rfl⟩⟩⟩
  rw [hrow, hfilter]
  rfl

lemma localizeCloud_onFloor {n n' : Node ℝ} {tick : Tick ℝ} {o : Outcome ℝ}
    (hR : n.camToWorldR = some 1) (hcloud : n.latestCloud = some row)
    (h : n.firstLocalizeOrTrack onFloor {} [] row tick = .ok (n', o)) :
    ∃ pubs, n.localizeCloud onFloor {} [] tick = .ok (n', pubs, o) := by
  obtain ⟨filtered, hprep⟩ := prepareScan_row
  have hlen : ¬row.length < 200 := by simp [row]
  obtain ⟨ts, hts⟩ : ∃ ts, n'.publishTf onFloor {} tick.clock = .ok ts := ⟨_, rfl⟩
  have hscan : n.localizeScan onFloor {} [] row tick = .ok (n', ts, o) :=
    bind_eq_ok.mpr ⟨(n', o), h, bind_eq_ok.mpr ⟨ts, hts, rfl⟩⟩
  refine ⟨filtered ++ [.tf ts], ?_⟩
  simp only [Node.localizeCloud, hR, hcloud, if_neg hlen]
  exact bind_eq_ok.mpr ⟨_, hprep, bind_eq_ok.mpr ⟨_, hscan, rfl⟩⟩

/-- The first tick with the cloud locks when its search returns the identity. -/
lemma localize_first {n : Node ℝ} {tick : Tick ℝ} {q : Ros.Quaternion ℝ}
    (hfull : mapData.full = []) (hq : tick.gravityTf = some q)
    (hglobal : tick.globalIcp = candidate 1) (hinit : n.initialized = false)
    (hR : n.camToWorldR = none) (hcloud : n.latestCloud = some row) (hf : n.filter.Proper) :
    ∃ n' pubs, n.localize onFloor {} mapData tick = .ok (n', pubs, .locked 1) ∧
      AtOrigin n.localMap n' := by
  have htf : { n with mapPublished := true }.tryGetGravityTf onFloor tick.gravityTf =
      { n with mapPublished := true, camToWorldR := some 1 } := by
    simp only [Node.tryGetGravityTf, hR, hq]
    rfl
  set start : Node ℝ := { n with mapPublished := true, camToWorldR := some 1 }
  obtain ⟨f, hseed⟩ : ∃ f, start.filter.seedKalmansFromT onFloor
      (withZ 1 (-0)) = .ok f := ⟨_, rfl⟩
  obtain ⟨hproper, -⟩ := PoseFilter.Proper.seed hf hseed
  set locked : Node ℝ := { start with
    floorZWorld := 0
    tMapCam := 1
    filter := { f with tPublished := withZ 1 (-0) }
    settleTicks := settleTicksAfterLock
    initialized := true }
  have hfirst : start.firstLocalizeOrTrack onFloor {} [] row tick = .ok (locked, .locked 1) := by
    have hlock : { start with floorZWorld := 0 }.lock onFloor {} [] 1 =
        .ok { locked with initialized := n.initialized } :=
      bind_eq_ok.mpr ⟨f, hseed, bind_eq_ok.mpr ⟨start.localMap, rfl, rfl⟩⟩
    have hne : row.isEmpty = false := by simp [row]
    rw [Node.firstLocalizeOrTrack, hinit, hne]
    exact bind_eq_ok.mpr ⟨0, rfl, bind_eq_ok.mpr ⟨⟨1, 1, 0⟩, hglobal, bind_eq_ok.mpr ⟨true,
      firstGates_origin, bind_eq_ok.mpr ⟨_, hlock, rfl⟩⟩⟩⟩
  obtain ⟨pubs, hlocalize⟩ := localizeCloud_onFloor (n := start) rfl hcloud hfirst
  refine ⟨locked, n.mapPublication mapData ++ pubs, ?_, rfl, rfl, Nat.succ_pos 9, rfl, hcloud, rfl,
    hproper.x, hproper.y, hproper.z, hproper.yaw⟩
  rw [Node.localize, if_neg (by simp), htf, hfull]
  exact bind_eq_ok.mpr ⟨_, hlocalize, rfl⟩

lemma exists_smoothTf {f : PoseFilter ℝ} (hf : f.Proper) (T : Mat4 ℝ) :
    ∃ f', f.smoothTf onFloor {} T = .ok f' := by
  have hstep {k : KalmanScalar ℝ} (hk : k.Proper) (z : ℝ) : ∃ k', k.step z = .ok k' := by
    have hne : k.P + k.Q + k.R ≠ 0 :=
      (add_pos (add_pos_of_pos_of_nonneg hk.state hk.process) hk.measurement).ne'
    exact ⟨_, bind_eq_ok.mpr ⟨_, if_neg hne, rfl⟩⟩
  obtain ⟨yaw, hyaw⟩ : ∃ yaw, yawOf onFloor T = .ok yaw := ⟨_, rfl⟩
  obtain ⟨kfX, hx⟩ := hstep hf.x (T 0 3)
  obtain ⟨kfY, hy⟩ := hstep hf.y (T 1 3)
  obtain ⟨kfZ, hz⟩ := hstep hf.z (T 2 3)
  obtain ⟨kfYaw, hkf⟩ := hstep hf.yaw
    (f.kfYaw.x + (mod (yaw - f.kfYaw.x + pi) (lit 2 * pi) - pi))
  exact ⟨_, bind_eq_ok.mpr ⟨yaw, hyaw, bind_eq_ok.mpr ⟨kfX, hx, bind_eq_ok.mpr ⟨kfY, hy,
    bind_eq_ok.mpr ⟨kfZ, hz, bind_eq_ok.mpr ⟨kfYaw, hkf, rfl⟩⟩⟩⟩⟩⟩

lemma updateLocalMap_onFloor (n : Node ℝ) (x y : ℝ) :
    n.updateLocalMap onFloor {} [] x y = .ok n.localMap := by
  simp only [Node.updateLocalMap]
  split
  · rfl
  · split <;> rfl

/-- A tick that tracks a candidate within a metre. -/
lemma localize_tracked {m : LocalMap ℝ} {n : Node ℝ} {tick : Tick ℝ} (hn : AtOrigin m n)
    (hfull : mapData.full = []) (htrack : tick.trackIcp = candidate T)
    (hdist : planarDist T 1 ≤ 1) :
    ∃ n' pubs, n.localize onFloor {} mapData tick = .ok (n', pubs, .tracked T) ∧
      n'.initialized = true ∧ n'.tMapCam = T := by
  set start : Node ℝ := { n with mapPublished := true }
  have htf : start.tryGetGravityTf onFloor tick.gravityTf = start := by
    simp only [Node.tryGetGravityTf, start, hn.camToWorldR]
  have hnear : le (planarDist T start.tMapCam) ({} : Config ℝ).maxDposePerTick = true := by
    rw [show start.tMapCam = 1 from hn.tMapCam, real_le, decide_eq_true_eq]
    exact hdist.trans (by simp)
  have hbudget : le (planarDist T start.tMapCam) (start.effectiveBudget {}) = true := by
    rwa [Node.effectiveBudget, if_pos hn.settling]
  have hjustified : start.justified onFloor {} row ⟨T, 1, 0⟩ = .ok false := by
    simp only [Node.justified, hbudget]
    rfl
  have hgates : start.trackGates onFloor {} row ⟨T, 1, 0⟩ = .ok true := by
    refine bind_eq_ok.mpr ⟨true, goodAttitude_onFloor T, bind_eq_ok.mpr ⟨false, hjustified,
      congrArg Except.ok ?_⟩⟩
    simp only [hnear, hbudget]
    simp
    norm_num
  set settled : Node ℝ := { start with settleTicks := start.settleTicks - 1 }
  obtain ⟨f, hf⟩ := exists_smoothTf hn.proper (settled.withFloorZ T)
  have hconfident : settled.smoothConfident onFloor {} ⟨T, 1, 0⟩ = .ok f := by
    have hle : le ({} : Config ℝ).confidenceTh 1 = true := by
      simp
      norm_num
    rw [Node.smoothConfident, if_pos hle]
    exact hf
  have haccept : settled.acceptTrack onFloor {} [] ⟨T, 1, 0⟩ =
      .ok { settled with tMapCam := T, filter := f, lostCount := 0 } :=
    bind_eq_ok.mpr ⟨f, hconfident, bind_eq_ok.mpr ⟨_, updateLocalMap_onFloor _ _ _, rfl⟩⟩
  have hfirst : start.firstLocalizeOrTrack onFloor {} [] row tick =
      .ok ({ settled with tMapCam := T, filter := f, lostCount := 0 }, .tracked T) := by
    rw [Node.firstLocalizeOrTrack, if_pos hn.initialized]
    exact bind_eq_ok.mpr ⟨_, htrack, bind_eq_ok.mpr ⟨true, hgates, bind_eq_ok.mpr ⟨_, haccept,
      rfl⟩⟩⟩
  obtain ⟨pubs, hlocalize⟩ := localizeCloud_onFloor (n := start) hn.camToWorldR hn.latestCloud
    hfirst
  refine ⟨{ settled with tMapCam := T, filter := f, lostCount := 0 },
    n.mapPublication mapData ++ pubs, ?_, hn.initialized, rfl⟩
  rw [Node.localize, if_neg (by simp), htf, hfull]
  exact bind_eq_ok.mpr ⟨_, hlocalize, rfl⟩

lemma step_of_localize {tick : Tick ℝ} {n : Node ℝ} {pubs : List (Publication ℝ)} {o : Outcome ℝ}
    (h : s.world.node.localize lib cfg mapData tick = .ok (n, pubs, o)) :
    ∃ s', s.step lib cfg mapData (.tick tick) = some s' ∧ s'.world.node = n ∧
      s'.measured = measuredAfter cfg tick s.measured o := by
  simp only [step, World.step, measuredBy, h]
  exact ⟨_, rfl, rfl, rfl⟩

/-- A candidate that is turned by one radian and moved by a decimetre. -/
noncomputable def turned : Mat4 ℝ := poseOf (Rotation.aboutZ 1) ⟨lit (1 / 10), 0, 0⟩

/-- A tick in which both ICP calls return the candidate. -/
noncomputable def tickWith (T : Mat4 ℝ) : Tick ℝ where
  clock := ⟨0, 0⟩
  gravityTf := some ⟨0, 0, 0, 1⟩
  trackIcp := candidate T
  globalIcp := candidate T

lemma planarDist_turned : planarDist turned 1 ≤ 1 := by
  have hx : turned 0 3 - (1 : Mat4 ℝ) 0 3 = lit (1 / 10) := by simp [turned, poseOf]
  have hy : turned 1 3 - (1 : Mat4 ℝ) 1 3 = 0 := by simp [turned, poseOf]
  rw [planarDist, hx, hy, planarNorm, real_npSqrt, mul_zero, add_zero,
    Real.sqrt_mul_self (by norm_num)]
  norm_num

/-- The first tick with the cloud locks, and the second one smooths a turn and a shift in. -/
theorem smooth_after_lock : ∃ s : Watched ℝ, Run (step onFloor {} noMap) (init onFloor {} noMap)
      [.cloud row ⟨0, 0⟩, .tick (tickWith 1), .tick (tickWith turned)] s ∧
    s.world.node.initialized = true ∧ s.measured = [1, turned] ∧
    s.world.node.filter.Proper ∧
    (s.world.node.initialized = true → ∃ b, s.world.broadcasts.getLast? = some b ∧
      Spanned (s.measured.map fun T => T 0 3) b.transform.transform.translation.x ∧
      Spanned (s.measured.map fun T => T 1 3) b.transform.transform.translation.y ∧
      b.transform.transform.translation.z = -s.world.node.floorZWorld) ∧
    ∀ T f', s.world.node.filter.smoothTf onFloor {} T = .ok f' →
      s.world.node.filter.Smooths onFloor T f' := by
  have hQ : (0 : ℝ) ≤ lit 0.001 := real_lit_nonneg (by norm_num)
  have hR : (0 : ℝ) < lit 0.02 := real_lit_pos (by norm_num)
  set start : Watched ℝ := ⟨⟨(Node.init onFloor {} noMap).cloudCb row ⟨0, 0⟩, [], []⟩, []⟩
  have hstart : (init onFloor {} noMap).Smooth onFloor := smooth_init hQ hR
  have hfull : noMap.full = [] := rfl
  have hfirst : (tickWith 1).globalIcp = candidate 1 := rfl
  have hsecond : (tickWith turned).trackIcp = candidate turned := rfl
  obtain ⟨n₁, pubs₁, hlock, hn₁⟩ := localize_first (n := start.world.node) hfull
    (show (tickWith 1).gravityTf = some ⟨0, 0, 0, 1⟩ from rfl) hfirst rfl rfl rfl hstart.proper
  obtain ⟨s₁, h₁, rfl, hmeasured₁⟩ := step_of_localize hlock
  obtain ⟨n₂, pubs₂, htrack, hinit, -⟩ := localize_tracked hn₁ hfull hsecond planarDist_turned
  obtain ⟨s, h₂, rfl, hmeasured₂⟩ := step_of_localize htrack
  have hrun : Run (step onFloor {} noMap) (init onFloor {} noMap)
      [.cloud row ⟨0, 0⟩, .tick (tickWith 1), .tick (tickWith turned)] s :=
    run_cons_iff.mpr ⟨start, rfl, run_cons_iff.mpr ⟨s₁, h₁, run_cons_iff.mpr ⟨s, h₂, Run.nil⟩⟩⟩
  have hconfident : (tickWith turned).confident ({} : Config ℝ) = true := by
    simp [Tick.confident, tickWith, candidate]
    norm_num
  have hmeasured : s.measured = [1, turned] := by
    rw [hmeasured₂, hmeasured₁]
    exact if_pos hconfident
  exact ⟨s, hrun, hinit, hmeasured, smooth_of_run rfl hQ hR hrun⟩

end Watched

end Real

end Localizer
