import HumanoidNavigation.Localizer.PointToPlane
import HumanoidNavigation.Localizer.PointToPoint
import HumanoidNavigation.Localizer.Smoothing

/-!
# The closed loop keeps the pose planar

In `System` what the ICP calls return is an input of the tick. Here the tick computes it, by the
functions of `Icp`, from the state of the node; only the result of RANSAC is left open. Every run
of the closed loop is one of the open system (`run_of_closed`). With `use_3d_icp` the pose is planar
from the first lock on, and only a re-localization changes its height.
-/

namespace Localizer

open PyFloat Except Ros NpArray Rotation Transition

/-! ### The closed loop -/

section

variable {F : Type} [PyFloat F]

/-- The events from outside the node. A timer event brings what RANSAC would return. -/
inductive Input (F : Type) where
  | cloud (pts : List (Vector3 F)) (stamp : Stamp)
  | odom (pos : Vector3 F) (stamp : Stamp)
  | timer (clock : Stamp) (gravityTf : Option (Ros.Quaternion F)) (ransac : Ransac F)

/-- The scan that `_localize` works on. -/
def Node.scanOf (lib : ThirdParty F) (cfg : Config F) (n : Node F)
    (gravityTf : Option (Ros.Quaternion F)) : Except PyError (List (Vector3 F)) :=
  match (n.tryGetGravityTf lib gravityTf).camToWorldR, n.latestCloud with
  | some R, some cloud => do
    let (scan, _) ← prepareScan lib cfg R cloud
    return scan
  | _, _ => throw .valueError

/-- A tick with the results of the two ICP calls. -/
def Node.timerTick (lib : ThirdParty F) (num : Numerics F) (cfg : Config F) (icfg : IcpConfig F)
    (mapData : MapData F) (n : Node F) (clock : Stamp) (gravityTf : Option (Ros.Quaternion F))
    (ransac : Ransac F) : Tick F where
  clock := clock
  gravityTf := gravityTf
  trackIcp := do
    runTrackIcp lib num cfg icfg n.localMap (← n.scanOf lib cfg gravityTf) n.tMapCam
  globalIcp := do
    runGlobalIcp lib num cfg icfg mapData ransac n.localMap (← n.scanOf lib cfg gravityTf)
      n.tMapCam

/-- The event that an input is for the node. -/
def Input.event (lib : ThirdParty F) (num : Numerics F) (cfg : Config F) (icfg : IcpConfig F)
    (mapData : MapData F) (n : Node F) : Input F → Event F
  | .cloud pts stamp => .cloud pts stamp
  | .odom pos stamp => .odom pos stamp
  | .timer clock gravityTf ransac =>
    .tick (n.timerTick lib num cfg icfg mapData clock gravityTf ransac)

/-- A step of the closed loop. -/
def World.closedStep (lib : ThirdParty F) (num : Numerics F) (cfg : Config F) (icfg : IcpConfig F)
    (mapData : MapData F) (w : World F) (i : Input F) : Option (World F) :=
  w.step lib cfg mapData (i.event lib num cfg icfg mapData w.node)

variable {lib : ThirdParty F} {num : Numerics F} {cfg : Config F} {icfg : IcpConfig F}
  {mapData : MapData F} {n n' : Node F} {full scan : List (Vector3 F)} {c g : IcpResult F}
  {tick : Tick F} {o : Outcome F} {w w' : World F} {is : List (Input F)}

/-- Every run of the closed loop is a run of the open system. -/
theorem run_of_closed {w₀ : World F}
    (hrun : Run (World.closedStep lib num cfg icfg mapData) w₀ is w) :
    ∃ es, Run (World.step lib cfg mapData) w₀ es w := by
  induction hrun with
  | nil => exact ⟨[], .nil⟩
  | snoc _ he ih =>
    obtain ⟨es, hes⟩ := ih
    exact ⟨_, hes.snoc he⟩

/-! ### What a tick does to the pose -/

/-- What a tick with a scan does to `T_map_cam`. -/
inductive Node.PoseCase (cfg : Config F) (n : Node F) (tick : Tick F) (n' : Node F) :
    Outcome F → Prop where
  | weak {T : Mat4 F} (hT : n'.tMapCam = n.tMapCam) (hinit : n.initialized = false)
      (hinit' : n'.initialized = false) : PoseCase cfg n tick n' (.weak T)
  | locked {g : IcpResult F} (hg : tick.globalIcp = .ok g) (hinit : n.initialized = false)
      (hfit : le cfg.minFitnessReloc g.fitness = true) (hT : n'.tMapCam = g.T) :
      PoseCase cfg n tick n' (.locked g.T)
  | tracked {c : IcpResult F} (hc : tick.trackIcp = .ok c)
      (hinit : n.initialized = true) (hfit : le cfg.minFitness c.fitness = true)
      (hT : n'.tMapCam = c.T) : PoseCase cfg n tick n' (.tracked c.T)
  | relocalized {g : IcpResult F} (hg : tick.globalIcp = .ok g)
      (hinit : n.initialized = true) (hfit : le cfg.minFitnessReloc g.fitness = true)
      (hT : n'.tMapCam = g.T) : PoseCase cfg n tick n' (.relocalized g.T)
  | held (hT : n'.tMapCam = n.tMapCam) (hinit : n.initialized = true) :
      PoseCase cfg n tick n' .held

lemma Node.trackGates_fitness (h : n.trackGates lib cfg scan c = .ok true) :
    le cfg.minFitness c.fitness = true := by
  obtain ⟨attitude, -, h⟩ := bind_eq_ok.mp h
  obtain ⟨justified, -, h⟩ := bind_eq_ok.mp h
  replace h := Except.ok.inj h
  simp only [Bool.and_eq_true] at h
  exact h.1.1.1.1

lemma Node.recoveryGates_fitness (h : n.recoveryGates lib cfg g = .ok true) :
    le cfg.minFitnessReloc g.fitness = true := by
  obtain ⟨attitude, -, h⟩ := bind_eq_ok.mp h
  replace h := Except.ok.inj h
  simp only [Bool.and_eq_true] at h
  exact h.1.1.1

lemma Node.poseCase_of_firstLocalize (hinit : n.initialized = false)
    (h : n.firstLocalize lib cfg full scan tick.globalIcp = .ok (n', o)) :
    PoseCase cfg n tick n' o := by
  obtain ⟨floorZ, g, hg, ⟨hgates, rfl, _, hlock, rfl⟩ | ⟨-, rfl, rfl⟩⟩ := firstLocalize_ok h
  · obtain ⟨filter, localMap, -, -, rfl⟩ := lock_ok hlock
    exact .locked hg hinit (firstGates_eq_true hgates).2.1 rfl
  · exact .weak rfl hinit hinit

lemma Node.poseCase_of_track (hinit : n.initialized = true)
    (h : n.track lib cfg full scan tick.trackIcp tick.globalIcp = .ok (n', o)) :
    PoseCase cfg n tick n' o := by
  obtain ⟨c, hc, ⟨hgates, rfl, haccept⟩ | ⟨-, hreject⟩⟩ := track_ok h
  · obtain ⟨filter, localMap, -, -, rfl⟩ := acceptTrack_ok haccept
    exact .tracked hc hinit (trackGates_fitness hgates) rfl
  · rcases rejectTrack_ok hreject with ⟨g, _, -, hg, hgates, rfl, hlock, rfl⟩ | ⟨-, rfl, rfl⟩
    · obtain ⟨filter, localMap, -, -, rfl⟩ := lock_ok hlock
      exact .relocalized hg hinit (recoveryGates_fitness hgates) rfl
    · exact .held rfl hinit

lemma Node.poseCase_of_firstLocalizeOrTrack
    (h : n.firstLocalizeOrTrack lib cfg full scan tick = .ok (n', o)) :
    PoseCase cfg n tick n' o := by
  rcases firstLocalizeOrTrack_ok h with ⟨hinit, h⟩ | ⟨hinit, h⟩
  · exact poseCase_of_track hinit h
  · exact poseCase_of_firstLocalize hinit h

/-- It depends on the pose and `_initialized` alone. -/
lemma Node.PoseCase.congr {m : Node F} (h : PoseCase cfg m tick n' o)
    (hT : m.tMapCam = n.tMapCam) (hinit : m.initialized = n.initialized) :
    PoseCase cfg n tick n' o := by
  cases h with
  | weak hT' h h' => exact .weak (hT'.trans hT) (hinit ▸ h) h'
  | locked hg h hfit hT' => exact .locked hg (hinit ▸ h) hfit hT'
  | tracked hc h hfit hT' => exact .tracked hc (hinit ▸ h) hfit hT'
  | relocalized hg h hfit hT' => exact .relocalized hg (hinit ▸ h) hfit hT'
  | held hT' h => exact .held (hT'.trans hT) (hinit ▸ h)

/-- A tick leaves the pose alone, or it treats it as one of the cases says. -/
lemma Node.localize_pose {pubs : List (Publication F)}
    (h : n.localize lib cfg mapData tick = .ok (n', pubs, o)) :
    (n'.tMapCam = n.tMapCam ∧ n'.initialized = n.initialized) ∨ PoseCase cfg n tick n' o := by
  rcases localize_ok h with ⟨hn, -⟩ | ⟨hn, -⟩ | ⟨m, scan, ts, hn, -, hm, -⟩
  · exact Or.inl ⟨hn.tMapCam, hn.initialized⟩
  · exact Or.inl ⟨hn.tMapCam, hn.initialized⟩
  · exact Or.inr ((poseCase_of_firstLocalizeOrTrack (localizeScan_ok hm).1).congr hn.tMapCam
      hn.initialized)

/-- The event is a tick that accepts a re-localization. -/
def World.Relocalizes (lib : ThirdParty F) (cfg : Config F) (mapData : MapData F) (w : World F)
    (e : Event F) : Prop :=
  ∃ tick n pubs T, e = .tick tick ∧
    w.node.localize lib cfg mapData tick = .ok (n, pubs, .relocalized T)

lemma World.step_tick (h : w.step lib cfg mapData (.tick tick) = some w') :
    ∃ pubs o, w.node.localize lib cfg mapData tick = .ok (w'.node, pubs, o) := by
  simp only [step] at h
  split at h
  · next n pubs o hok =>
    cases h
    exact ⟨pubs, o, hok⟩
  · cases h

end

/-! ### Planar poses -/

attribute [local instance] PyFloat.real

variable {lib : ThirdParty ℝ} {num : Numerics ℝ} {cfg : Config ℝ} {icfg : IcpConfig ℝ}
  {mapData : MapData ℝ} {w w' : World ℝ} {i : Input ℝ} {is : List (Input ℝ)} {o : Outcome ℝ}

/-- What RANSAC would return is a transform. -/
def Input.RansacLaw : Input ℝ → Prop
  | .cloud _ _ | .odom _ _ => True
  | .timer _ _ ransac => Localizer.RansacLaw ransac

/-- The pose is a transform, and a planar one from the first lock on. -/
structure World.Level (w : World ℝ) : Prop where
  homogeneous : Homogeneous w.node.tMapCam
  planar : w.node.initialized = true → Planar w.node.tMapCam

lemma World.level_init : (World.init lib cfg mapData).Level :=
  ⟨homogeneous_hintToMatrix, fun h => by cases h⟩

/-- A result with the fitness `-1` passes no gate. -/
lemma not_le_neg_one {x : ℝ} (hx : 0 ≤ x) (h : le x (-1 : ℝ) = true) : False := by
  rw [real_le, decide_eq_true_eq] at h
  linarith

/-- What a tick of the closed loop does to a level pose. -/
lemma Node.PoseCase.level (hlaws : YawLaws lib num) (h3d : icfg.use3dIcp = true)
    (hmin : 0 ≤ cfg.minFitness) (hreloc : 0 ≤ cfg.minFitnessReloc) (hw : w.Level)
    {clock : Stamp} {gravityTf : Option (Ros.Quaternion ℝ)} {ransac : Ransac ℝ}
    (hransac : Localizer.RansacLaw ransac)
    (h : PoseCase cfg w.node (w.node.timerTick lib num cfg icfg mapData clock gravityTf ransac)
      w'.node o) :
    w'.Level ∧ (w.node.initialized = true → w'.node.tMapCam 2 3 ≠ w.node.tMapCam 2 3 →
      ∃ T, o = .relocalized T) := by
  have hglobal {g : IcpResult ℝ} (hg : (w.node.timerTick lib num cfg icfg mapData clock gravityTf
      ransac).globalIcp = .ok g) (hfit : le cfg.minFitnessReloc g.fitness = true) :
      Planar g.T := by
    obtain ⟨scan', hscan', hg⟩ := bind_eq_ok.mp hg
    refine (runGlobalIcp_ok hlaws h3d hransac hw.homogeneous hg).resolve_left fun hneg => ?_
    rw [hneg] at hfit
    exact not_le_neg_one hreloc hfit
  cases h with
  | weak hT hinit hinit' =>
    refine ⟨⟨hT ▸ hw.homogeneous, fun h => ?_⟩, fun h => ?_⟩
    · cases hinit'.symm.trans h
    · cases hinit.symm.trans h
  | locked hg hinit hfit hT =>
    have hplanar := hglobal hg hfit
    refine ⟨⟨hT ▸ hplanar.homogeneous, fun _ => hT ▸ hplanar⟩, fun h => ?_⟩
    cases hinit.symm.trans h
  | @tracked c hc hinit hfit hT =>
    obtain ⟨scan', hscan', hc⟩ := bind_eq_ok.mp hc
    rcases runTrackIcp_ok hlaws h3d hw.homogeneous hc with ⟨-, hneg⟩ | ⟨hplanar, hz⟩
    · rw [hneg] at hfit
      exact (not_le_neg_one hmin hfit).elim
    · refine ⟨⟨hT ▸ hplanar.homogeneous, fun _ => hT ▸ hplanar⟩, fun _ hne => ?_⟩
      rw [hT] at hne
      exact absurd hz hne
  | relocalized hg hinit hfit hT =>
    have hplanar := hglobal hg hfit
    exact ⟨⟨hT ▸ hplanar.homogeneous, fun _ => hT ▸ hplanar⟩, fun _ _ => ⟨_, rfl⟩⟩
  | held hT hinit =>
    refine ⟨⟨hT ▸ hw.homogeneous, fun _ => hT ▸ hw.planar hinit⟩, fun _ hne => ?_⟩
    exact absurd (congrFun₂ hT 2 3) hne

/-- A step of the closed loop keeps the pose level, and its height changes only by a
re-localization. -/
lemma World.Level.step (hlaws : YawLaws lib num) (h3d : icfg.use3dIcp = true)
    (hmin : 0 ≤ cfg.minFitness) (hreloc : 0 ≤ cfg.minFitnessReloc) (hw : w.Level)
    (hransac : i.RansacLaw) (h : w.closedStep lib num cfg icfg mapData i = some w') :
    w'.Level ∧ (w.node.initialized = true → w'.node.tMapCam 2 3 ≠ w.node.tMapCam 2 3 →
      Relocalizes lib cfg mapData w (i.event lib num cfg icfg mapData w.node)) := by
  cases i with
  | cloud pts stamp | odom pos stamp =>
    cases h
    exact ⟨⟨hw.homogeneous, hw.planar⟩, fun _ hne => absurd rfl hne⟩
  | timer clock gravityTf ransac =>
    obtain ⟨pubs, o, hlocalize⟩ := step_tick h
    rcases Node.localize_pose hlocalize with ⟨hT, hinit⟩ | hcase
    · refine ⟨⟨hT ▸ hw.homogeneous, fun h => hT ▸ hw.planar (hinit ▸ h)⟩, fun _ hne => ?_⟩
      exact absurd (congrFun₂ hT 2 3) hne
    · obtain ⟨hlevel, hheight⟩ := hcase.level hlaws h3d hmin hreloc hw hransac
      refine ⟨hlevel, fun hinit hne => ?_⟩
      obtain ⟨T, rfl⟩ := hheight hinit hne
      exact ⟨_, _, pubs, T, rfl, hlocalize⟩

lemma World.level_of_run (hlaws : YawLaws lib num) (h3d : icfg.use3dIcp = true)
    (hmin : 0 ≤ cfg.minFitness) (hreloc : 0 ≤ cfg.minFitnessReloc)
    (hrun : Run (closedStep lib num cfg icfg mapData) (init lib cfg mapData) is w)
    (hransac : ∀ i ∈ is, i.RansacLaw) : w.Level :=
  Run.invariant_of_events level_init
    (fun _ _ _ hw hi he => (hw.step hlaws h3d hmin hreloc hi he).1) hrun hransac

/-- What `icp_point_to_plane` returns is planar and as high as its initial transform, over the
scales too unless all are skipped. With `use_3d_icp` and without negative thresholds the pose of the
node is planar from the first lock on, in every run, and a step that changes its height accepts a
re-localization. -/
theorem planar_of_run (hlaws : YawLaws lib num) :
    (∀ src tree tgt normals initT maxDist k r, Homogeneous initT →
      icpPointToPlane lib num src tree tgt normals initT maxDist k = .ok r →
      Planar r.T ∧ r.T 2 3 = initT 2 3) ∧
    (∀ src tgt normals initT voxels r, Homogeneous initT →
      multiScaleIcpPointToPlane lib num src tgt normals initT voxels = .ok r →
      PlanarOrSkipped initT r) ∧
    ∀ cfg icfg mapData is w, icfg.use3dIcp = true → 0 ≤ cfg.minFitness →
      0 ≤ cfg.minFitnessReloc → (∀ i ∈ is, Input.RansacLaw i) →
      Run (World.closedStep lib num cfg icfg mapData) (.init lib cfg mapData) is w →
      (w.node.initialized = true → Planar w.node.tMapCam) ∧
      ∀ i w', i.RansacLaw → w.closedStep lib num cfg icfg mapData i = some w' →
        w.node.initialized = true → w'.node.tMapCam 2 3 ≠ w.node.tMapCam 2 3 →
        w.Relocalizes lib cfg mapData (i.event lib num cfg icfg mapData w.node) := by
  refine ⟨fun src tree tgt normals initT maxDist k r hinit h => icpPointToPlane_ok hlaws hinit h,
    fun src tgt normals initT voxels r hinit h => multiScaleIcpPointToPlane_ok hlaws hinit h, ?_⟩
  intro cfg icfg mapData is w h3d hmin hreloc hransac hrun
  have hlevel := World.level_of_run hlaws h3d hmin hreloc hrun hransac
  exact ⟨hlevel.planar, fun i w' hi he => (hlevel.step hlaws h3d hmin hreloc hi he).2⟩

/-! ### A track after the lock -/

open Watched (onFloor row candidate)

/-- A map of the row of points. -/
noncomputable def rowMap : MapData ℝ :=
  ⟨[], [], ⟨row, ⟨row⟩, row.map fun p => (p.x, p.y), ⟨row.map fun p => (p.x, p.y)⟩,
    row.map fun _ => ⟨0, 0, 1⟩, none⟩⟩

/-- RANSAC returns the identity. -/
noncomputable def identityRansac : Ransac ℝ := fun _ _ _ _ _ => ⟨1, 1, 0⟩

lemma yawLaws_onFloor : YawLaws onFloor .exact := ⟨fun _ => rfl, fun _ => rfl⟩

lemma homogeneous_one : Homogeneous (1 : Mat4 ℝ) := by
  rw [← affine_one]
  exact homogeneous_affine 1 0

lemma projectYawOnly_one : projectYawOnly onFloor 1 = .ok 1 := by
  have hshift : (fun i : Fin 3 => (1 : Mat4 ℝ) i.castSucc 3) = 0 := by
    funext i
    fin_cases i <;> rfl
  have hyaw : (onFloor.asEuler (rotation 1) false : Except PyError (Vector3 ℝ)) =
      .ok ⟨0, 0, 0⟩ := by
    simp [onFloor, rotation]
    exact Complex.arg_one
  refine bind_eq_ok.mpr ⟨⟨0, 0, 0⟩, hyaw, congrArg Except.ok ?_⟩
  show withRotation 1 (aboutZ 0) = 1
  rw [withRotation_eq homogeneous_one, aboutZ_zero, hshift, affine_one]

lemma poseOf_zero : poseOf (aboutZ 0) ⟨0, 0, 0⟩ = (1 : Mat4 ℝ) := by
  have hshift : coords (⟨0, 0, 0⟩ : Vector3 ℝ) = 0 := by
    funext i
    fin_cases i <;> rfl
  rw [poseOf_eq, aboutZ_zero, hshift, affine_one]

lemma hintToMatrix_onFloor : hintToMatrix onFloor {} = 1 := by
  rw [← poseOf_zero]
  simp [hintToMatrix, onFloor]

lemma transformPts_one (pts : List (Fin 3 → ℝ)) : transformPts pts 1 = pts := by
  have hact : act (1 : Mat4 ℝ) = id := by
    funext p
    exact act_one p
  rw [transformPts, transformPt_eq, hact, List.map_id]

section

variable {src tgt : List (Fin 3 → ℝ)} {d : ℝ}

/-- A point of the target matches itself. -/
lemma correspondence_of_mem (hd : 0 < d) {p : Fin 3 → ℝ} (hp : p ∈ tgt) :
    ∃ i, correspondence .exact ⟨tgt⟩ d p = some (0, i) ∧ tgt[i]? = some p := by
  have htree : p ∈ (⟨tgt⟩ : KdTree (Fin 3 → ℝ)).points := hp
  obtain ⟨i, hnear, hi⟩ := Numerics.nearest_of_mem htree
  refine ⟨i, ?_, hi⟩
  rw [correspondence, hnear]
  simp [hd]

lemma score_of_subset (hd : 0 < d) (hsub : ∀ p ∈ src, p ∈ tgt) (hne : src ≠ []) :
    score .exact ⟨tgt⟩ d src 1 = .ok (1, 0) := by
  have hdists : (transformPts src 1).filterMap (fun p =>
      (correspondence .exact ⟨tgt⟩ d p).map Prod.fst) = List.replicate src.length 0 := by
    rw [transformPts_one, ← List.map_const', ← List.filterMap_eq_map]
    refine List.filterMap_congr fun p hp => ?_
    obtain ⟨i, hi, -⟩ := correspondence_of_mem hd (hsub p hp)
    rw [hi]
    rfl
  have hpos : 0 < src.length := List.length_pos_of_ne_nil hne
  have hfitness : div (lit src.length) (lit (max src.length 1 : ℕ)) = Except.ok (1 : ℝ) := by
    have hcast : (src.length : ℝ) ≠ 0 := Nat.cast_ne_zero.mpr hpos.ne'
    rw [max_eq_left hpos]
    simp [PyFloat.div, hcast]
  simp only [score, hdists, List.length_replicate, if_pos hpos]
  refine bind_eq_ok.mpr ⟨1, hfitness, congrArg Except.ok ?_⟩
  simp [npDiv]

/-- The matches leave the pose where it is. -/
lemma planeIteration_of_subset (src : List (Fin 3 → ℝ)) {normals : List (Fin 3 → ℝ)}
    (hlen : tgt.length = normals.length) :
    planeIteration .exact ⟨tgt⟩ tgt normals src d 1 = .ok none ∨
      planeIteration .exact ⟨tgt⟩ tgt normals src d 1 = .ok (some 1) := by
  simp only [planeIteration]
  split_ifs
  · exact Or.inl rfl
  · right
    obtain ⟨pairs, hpairs⟩ : ∃ pairs, gather (tgt.zip normals)
        (masked .exact ⟨tgt⟩ d (transformPts src 1)) = .ok pairs := by
      refine gather_ok fun m hm => ?_
      obtain ⟨_, hnear⟩ := mem_masked hm
      rw [List.length_zip, ← hlen, min_self]
      exact Numerics.nearestLaw_exact _ _ _ _ hnear
    refine bind_eq_ok.mpr ⟨pairs, hpairs, bind_eq_ok.mpr ⟨0, rfl, ?_⟩⟩
    refine congrArg (fun T => Except.ok (some T)) ?_
    rw [matMul_eq, mul_one]
    simpa [Numerics.exact] using poseOf_zero

lemma iterate_of_fixed {α : Type} {step : α → Except PyError (Option α)} {a : α}
    (h : step a = .ok none ∨ step a = .ok (some a)) (k : ℕ) : iterate step k a = .ok a := by
  induction k with
  | zero => rfl
  | succ k ih =>
    rcases h with h | h
    · exact bind_eq_ok.mpr ⟨none, h, rfl⟩
    · exact bind_eq_ok.mpr ⟨some a, h, ih⟩

end

/-- The row of points is registered to itself at once. -/
lemma icpPointToPlane_row {d : ℝ} (hd : 0 < d) (k : ℕ) :
    icpPointToPlane onFloor .exact row ⟨row⟩ row (row.map fun _ => ⟨0, 0, 1⟩) 1 d k =
      .ok ⟨1, 1, 0⟩ := by
  have hlen : (row.map coords).length =
      ((row.map fun _ => (⟨0, 0, 1⟩ : Vector3 ℝ)).map coords).length := by
    simp
  have hloop := iterate_of_fixed (planeIteration_of_subset (d := d) (row.map coords) hlen) k
  have hscore : score .exact ⟨row.map coords⟩ d (row.map coords) 1 = .ok (1, 0) :=
    score_of_subset hd (fun p hp => hp) (by simp [row])
  exact bind_eq_ok.mpr ⟨1, projectYawOnly_one, bind_eq_ok.mpr ⟨1, hloop, bind_eq_ok.mpr
    ⟨(1, 0), hscore, rfl⟩⟩⟩

/-- A scale neither drops points nor moves the pose. -/
lemma icpScale_row {v : ℝ} (hv : 0 < v) {best : IcpResult ℝ} (hT : best.T = 1) :
    icpScale onFloor .exact row row (row.map fun _ => ⟨0, 0, 1⟩) best v = .ok ⟨1, 1, 0⟩ := by
  have hpos : le v (lit 0) = false := by simpa using hv
  have hd : 0 < v * lit 2.5 := mul_pos hv (real_lit_pos (by norm_num))
  have hlen : row.length = (row.map fun _ => (⟨0, 0, 1⟩ : Vector3 ℝ)).length :=
    (List.length_map _).symm
  have htwenty : ¬((row.zip (row.map fun _ => (⟨0, 0, 1⟩ : Vector3 ℝ))).length < 20 ∨
      row.length < 20) := by
    simp [row]
  rw [icpScale, hpos, if_neg Bool.false_ne_true]
  refine bind_eq_ok.mpr ⟨row, rfl, bind_eq_ok.mpr ⟨_, rfl, ?_⟩⟩
  rw [if_neg htwenty, List.map_fst_zip hlen.le, List.map_snd_zip hlen.ge, hT]
  exact icpPointToPlane_row hd 15

lemma globalIcp_row :
    runGlobalIcp onFloor .exact {} {} rowMap identityRansac rowMap.localMap row 1 =
      candidate 1 := by
  have hd : (0 : ℝ) < lit 0.5 := real_lit_pos (by norm_num)
  exact bind_eq_ok.mpr ⟨_, rfl, icpPointToPlane_row hd 30⟩

lemma trackIcp_row : runTrackIcp onFloor .exact {} {} rowMap.localMap row 1 = candidate 1 := by
  have hcoarse : (0 : ℝ) < lit 0.3 := real_lit_pos (by norm_num)
  have hfine : (0 : ℝ) < lit 0.15 := real_lit_pos (by norm_num)
  exact bind_eq_ok.mpr ⟨_, icpScale_row hcoarse rfl, bind_eq_ok.mpr ⟨_, icpScale_row hfine rfl,
    rfl⟩⟩

/-- A timer event at which the gravity transform is the identity. -/
noncomputable def timer : Input ℝ := .timer ⟨0, 0⟩ (some ⟨0, 0, 0, 1⟩) identityRansac

/-- The cloud as it comes is the scan that a tick works on. -/
lemma scanOf_row {n : Node ℝ} {gravityTf : Option (Ros.Quaternion ℝ)}
    (hR : (n.tryGetGravityTf onFloor gravityTf).camToWorldR = some 1)
    (hcloud : n.latestCloud = some row) : n.scanOf onFloor {} gravityTf = .ok row := by
  obtain ⟨pubs, hprep⟩ := Watched.prepareScan_row
  simp only [Node.scanOf, hR, hcloud]
  exact bind_eq_ok.mpr ⟨_, hprep, rfl⟩

/-- The first timer event with the cloud locks. -/
lemma closedStep_lock {w : World ℝ} (hm : w.node.localMap = rowMap.localMap)
    (hT : w.node.tMapCam = 1) (hinit : w.node.initialized = false)
    (hR : w.node.camToWorldR = none) (hcloud : w.node.latestCloud = some row)
    (hf : w.node.filter.Proper) :
    ∃ w', w.closedStep onFloor .exact {} {} rowMap timer = some w' ∧
      Watched.AtOrigin rowMap.localMap w'.node := by
  have hscan : w.node.scanOf onFloor {} (some ⟨0, 0, 0, 1⟩) = .ok row := by
    refine scanOf_row ?_ hcloud
    simp only [Node.tryGetGravityTf, hR]
    rfl
  have hglobal : (w.node.timerTick onFloor .exact {} {} rowMap ⟨0, 0⟩ (some ⟨0, 0, 0, 1⟩)
      identityRansac).globalIcp = candidate 1 := by
    refine bind_eq_ok.mpr ⟨row, hscan, ?_⟩
    rw [hm, hT]
    exact globalIcp_row
  have hfull : rowMap.full = [] := rfl
  obtain ⟨n, pubs, hlock, hn⟩ := Watched.localize_first hfull rfl hglobal hinit hR hcloud hf
  rw [hm] at hn
  simp only [World.closedStep, World.step, Input.event, timer, hlock]
  exact ⟨_, rfl, hn⟩

/-- The timer event after it tracks. -/
lemma closedStep_track {w : World ℝ} (hn : Watched.AtOrigin rowMap.localMap w.node) :
    ∃ w' pubs, w.closedStep onFloor .exact {} {} rowMap timer = some w' ∧
      w.node.localize onFloor {} rowMap (w.node.timerTick onFloor .exact {} {} rowMap ⟨0, 0⟩
        (some ⟨0, 0, 0, 1⟩) identityRansac) = .ok (w'.node, pubs, .tracked 1) ∧
      w'.node.initialized = true := by
  have hscan : w.node.scanOf onFloor {} (some ⟨0, 0, 0, 1⟩) = .ok row := by
    refine scanOf_row ?_ hn.latestCloud
    simp only [Node.tryGetGravityTf, hn.camToWorldR]
  have htrack : (w.node.timerTick onFloor .exact {} {} rowMap ⟨0, 0⟩ (some ⟨0, 0, 0, 1⟩)
      identityRansac).trackIcp = candidate 1 := by
    refine bind_eq_ok.mpr ⟨row, hscan, ?_⟩
    rw [hn.localMap, hn.tMapCam]
    exact trackIcp_row
  have hfull : rowMap.full = [] := rfl
  have hdist : planarDist (1 : Mat4 ℝ) 1 ≤ 1 := by
    simp [planarDist, planarNorm]
  obtain ⟨n, pubs, hlocalize, hinit, -⟩ := Watched.localize_tracked hn hfull htrack hdist
  simp only [World.closedStep, World.step, Input.event, timer, hlocalize]
  exact ⟨_, pubs, rfl, rfl, hinit⟩

/-- The first tick with the cloud locks, the second one tracks, and a step from there may change
the height only by a re-localization. -/
theorem planar_of_run_lock : ∃ (w₁ w : World ℝ) (pubs : List (Publication ℝ)),
    Run (World.closedStep onFloor .exact {} {} rowMap) (.init onFloor {} rowMap)
      [.cloud row ⟨0, 0⟩, timer] w₁ ∧
    w₁.closedStep onFloor .exact {} {} rowMap timer = some w ∧
    w₁.node.localize onFloor {} rowMap (w₁.node.timerTick onFloor .exact {} {} rowMap ⟨0, 0⟩
      (some ⟨0, 0, 0, 1⟩) identityRansac) = .ok (w.node, pubs, .tracked 1) ∧
    w.node.initialized = true ∧ Planar w.node.tMapCam ∧
    ∀ i w', i.RansacLaw → w.closedStep onFloor .exact {} {} rowMap i = some w' →
      w.node.initialized = true → w'.node.tMapCam 2 3 ≠ w.node.tMapCam 2 3 →
      w.Relocalizes onFloor {} rowMap (i.event onFloor .exact {} {} rowMap w.node) := by
  have hQ : (0 : ℝ) ≤ lit 0.001 := real_lit_nonneg (by norm_num)
  have hR : (0 : ℝ) < lit 0.02 := real_lit_pos (by norm_num)
  set start : World ℝ := ⟨(Node.init onFloor {} rowMap).cloudCb row ⟨0, 0⟩, [], []⟩
  have hsmooth : (Watched.init onFloor {} rowMap).Smooth onFloor := Watched.smooth_init hQ hR
  obtain ⟨w₁, h₁, hn₁⟩ := closedStep_lock (w := start) rfl hintToMatrix_onFloor rfl rfl rfl
    hsmooth.proper
  obtain ⟨w, pubs, h₂, htrack, hinit⟩ := closedStep_track hn₁
  have hrun₁ : Run (World.closedStep onFloor .exact {} {} rowMap) (.init onFloor {} rowMap)
      [.cloud row ⟨0, 0⟩, timer] w₁ :=
    run_cons_iff.mpr ⟨start, rfl, run_cons_iff.mpr ⟨w₁, h₁, Run.nil⟩⟩
  have hmin : (0 : ℝ) ≤ ({} : Config ℝ).minFitness := real_lit_nonneg (by norm_num)
  have hreloc : (0 : ℝ) ≤ ({} : Config ℝ).minFitnessReloc := real_lit_nonneg (by norm_num)
  have hransac : ∀ i ∈ [Input.cloud row ⟨0, 0⟩, timer, timer], i.RansacLaw := by
    have htimer : timer.RansacLaw := fun _ _ _ _ _ => homogeneous_one
    rintro i hi
    obtain rfl | rfl : i = _ ∨ i = _ := by simpa using hi
    · trivial
    · exact htimer
  obtain ⟨hplanar, hstep⟩ := (planar_of_run yawLaws_onFloor).2.2 {} {} rowMap _ w rfl hmin hreloc
    hransac (hrun₁.snoc h₂)
  exact ⟨w₁, w, pubs, hrun₁, h₂, htrack, hinit, hplanar hinit, hstep⟩

end Localizer
