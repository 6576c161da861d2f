import HumanoidNavigation.Localizer.Drift

/-!
# Which poses are broadcast

A published pose is trusted when it is the hint, as long as nothing was accepted, or when the
filters made it from accepted candidates (`Derived`). The branch of `_first_localize` for a weak
candidate publishes that candidate; `trusted_iff` says that this is the only way to an untrusted
broadcast.
-/

namespace Localizer

open PyFloat Except Ros Transition

variable {F : Type} [PyFloat F] {lib : ThirdParty F} {cfg : Config F} {mapData : MapData F}
  {n n' m : Node F} {f f' : PoseFilter F} {full scan : List (Vector3 F)} {T : Mat4 F} {z : F}
  {Ts : List (Mat4 F)} {o : Outcome F} {tick : Tick F} {w w' : World F} {e : Event F}
  {es : List (Event F)}

/-! ### Poses from candidates -/

namespace PoseFilter

/-- The filters that start at the pose `T`. -/
def ofPose (lib : ThirdParty F) (cfg : Config F) (T : Mat4 F) : Except PyError (PoseFilter F) := do
  let start := KalmanScalar.init cfg.kalmanProcessVar cfg.kalmanMeasVar
  return ⟨T, start (T 0 3), start (T 1 3), start (T 2 3), start (← yawOf lib T)⟩

end PoseFilter

/-- The state that the filters reach from the candidates `Ts`: the first one starts them, the
others are smoothed into them. The floor height `z` of each is a matter of its own. -/
inductive Derived (lib : ThirdParty F) (cfg : Config F) : List (Mat4 F) → PoseFilter F → Prop where
  | lock {T : Mat4 F} {z : F} {f : PoseFilter F}
      (h : PoseFilter.ofPose lib cfg (withZ T z) = .ok f) : Derived lib cfg [T] f
  | smooth {Ts : List (Mat4 F)} {T : Mat4 F} {z : F} {f f' : PoseFilter F}
      (hf : Derived lib cfg Ts f) (h : f.smoothTf lib cfg (withZ T z) = .ok f') :
      Derived lib cfg (Ts ++ [T]) f'

lemma Derived.ne_nil (h : Derived lib cfg Ts f) : Ts ≠ [] := by
  cases h with
  | lock => simp
  | smooth => simp

/-- The rotation and the position in the plane of `initial_pose`. -/
def HintLike (lib : ThirdParty F) (cfg : Config F) (t : Transform F) : Prop :=
  lib.asQuat (rotation (hintToMatrix lib cfg)) = .ok t.rotation ∧
    t.translation.x = hintToMatrix lib cfg 0 3 ∧ t.translation.y = hintToMatrix lib cfg 1 3

/-- The hint until the first lock, and a pose derived from accepted candidates. -/
def Trusted (lib : ThirdParty F) (cfg : Config F) (b : Broadcast F) : Prop :=
  (b.accepted = [] ∧ HintLike lib cfg b.transform.transform) ∨
    ∃ Ts f, Derived lib cfg Ts f ∧ (∀ T ∈ Ts, T ∈ b.accepted) ∧
      toTransform lib f.tPublished = .ok b.transform.transform

/-- A candidate with the rotation and the position in the plane of `initial_pose`. -/
def AtHint (lib : ThirdParty F) (cfg : Config F) (T : Mat4 F) : Prop :=
  lib.asQuat (rotation T) = lib.asQuat (rotation (hintToMatrix lib cfg)) ∧
    T 0 3 = hintToMatrix lib cfg 0 3 ∧ T 1 3 = hintToMatrix lib cfg 1 3

/-- The floor height is no part of it. -/
lemma hintLike_iff_atHint {t : Transform F} (h : toTransform lib (withZ T z) = .ok t) :
    HintLike lib cfg t ↔ AtHint lib cfg T := by
  obtain ⟨q, hq, h⟩ := bind_eq_ok.mp h
  cases h
  rw [rotation_withZ] at hq
  rw [HintLike, AtHint, hq, eq_comm]
  rfl

/-- Until something is accepted, the hint alone is trusted. -/
lemma trusted_iff_of_nil {ts : TransformStamped F} :
    Trusted lib cfg ⟨ts, []⟩ ↔ HintLike lib cfg ts.transform := by
  constructor
  · rintro (⟨-, h⟩ | ⟨Ts, f, hf, hTs, -⟩)
    · exact h
    · exact absurd (List.eq_nil_iff_forall_not_mem.mpr fun T hT => by simpa using hTs T hT)
        hf.ne_nil
  · exact fun h => Or.inl ⟨rfl, h⟩

/-! ### The filters -/

/-- The variances are those of the configuration. -/
def KalmanScalar.HasVars (cfg : Config F) (k : KalmanScalar F) : Prop :=
  k.Q = cfg.kalmanProcessVar ∧ k.R = cfg.kalmanMeasVar

lemma KalmanScalar.HasVars.reset {k : KalmanScalar F} (h : k.HasVars cfg) (x₀ : F) :
    k.reset x₀ = .init cfg.kalmanProcessVar cfg.kalmanMeasVar x₀ := by
  rw [KalmanScalar.reset, KalmanScalar.init, h.1, h.2]

lemma KalmanScalar.HasVars.step {k k' : KalmanScalar F} {x : F} (hk : k.HasVars cfg)
    (h : k.step x = .ok k') : k'.HasVars cfg := by
  obtain ⟨K, -, h⟩ := bind_eq_ok.mp h
  cases h
  exact hk

namespace PoseFilter

/-- The variances of the four Kalman filters are those of the configuration. -/
structure HasVars (cfg : Config F) (f : PoseFilter F) : Prop where
  x : f.kfX.HasVars cfg
  y : f.kfY.HasVars cfg
  z : f.kfZ.HasVars cfg
  yaw : f.kfYaw.HasVars cfg

/-- Seeding leaves nothing of the old state but the variances. -/
lemma HasVars.ofPose_of_seed (hf : f.HasVars cfg) (h : f.seedKalmansFromT lib T = .ok f') :
    ofPose lib cfg T = .ok { f' with tPublished := T } := by
  obtain ⟨yaw, hyaw, h⟩ := bind_eq_ok.mp h
  cases h
  refine bind_eq_ok.mpr ⟨yaw, hyaw, ?_⟩
  simp only [hf.x.reset, hf.y.reset, hf.z.reset, hf.yaw.reset]
  rfl

lemma HasVars.seed (hf : f.HasVars cfg) (h : f.seedKalmansFromT lib T = .ok f') :
    f'.HasVars cfg := by
  obtain ⟨yaw, -, h⟩ := bind_eq_ok.mp h
  cases h
  exact ⟨hf.x, hf.y, hf.z, hf.yaw⟩

lemma HasVars.smooth (hf : f.HasVars cfg) (h : f.smoothTf lib cfg T = .ok f') :
    f'.HasVars cfg := by
  simp only [smoothTf] at h
  split_ifs at h
  · obtain ⟨newYaw, -, h⟩ := bind_eq_ok.mp h
    obtain ⟨kfX, hx, h⟩ := bind_eq_ok.mp h
    obtain ⟨kfY, hy, h⟩ := bind_eq_ok.mp h
    obtain ⟨kfZ, hz, h⟩ := bind_eq_ok.mp h
    obtain ⟨kfYaw, hyaw, h⟩ := bind_eq_ok.mp h
    cases h
    exact ⟨hf.x.step hx, hf.y.step hy, hf.z.step hz, hf.yaw.step hyaw⟩
  · obtain ⟨R, -, h⟩ := bind_eq_ok.mp h
    cases h
    exact ⟨hf.x, hf.y, hf.z, hf.yaw⟩

end PoseFilter

namespace Node

/-- What a tick with a scan does to the filters. -/
inductive FilterCase (lib : ThirdParty F) (cfg : Config F) (n : Node F)
    (globalIcp : Except PyError (IcpResult F)) (n' : Node F) : Outcome F → Prop where
  /-- A weak candidate is published, the filters are left. -/
  | weak {g : IcpResult F} {z : F} (hinit : n.initialized = false)
      (hinit' : n'.initialized = false) (hg : globalIcp = .ok g)
      (hgates : firstGates lib cfg g = .ok false)
      (hf : n'.filter = { n.filter with tPublished := withZ g.T z }) :
      FilterCase lib cfg n globalIcp n' (.weak g.T)
  | locked {g : IcpResult F} {z : F} {f : PoseFilter F} {o : Outcome F}
      (hinit' : n'.initialized = true) (hg : globalIcp = .ok g)
      (hgates : n.initialized = false → firstGates lib cfg g = .ok true)
      (ho : o.accepted = some g.T) (hseed : n.filter.seedKalmansFromT lib (withZ g.T z) = .ok f)
      (hf : n'.filter = { f with tPublished := withZ g.T z }) :
      FilterCase lib cfg n globalIcp n' o
  | smoothed {T : Mat4 F} {z : F} (hinit : n.initialized = true) (hinit' : n'.initialized = true)
      (hf : n.filter.smoothTf lib cfg (withZ T z) = .ok n'.filter) :
      FilterCase lib cfg n globalIcp n' (.tracked T)
  | kept {o : Outcome F} (hinit : n.initialized = true) (hinit' : n'.initialized = true)
      (hf : n'.filter = n.filter) : FilterCase lib cfg n globalIcp n' o

lemma filterCase_of_track (hinit : n.initialized = true)
    (h : n.track lib cfg full scan tick.trackIcp tick.globalIcp = .ok (n', o)) :
    FilterCase lib cfg n tick.globalIcp n' o := by
  have hinit' := (track_initialized h).trans hinit
  obtain ⟨c, -, ⟨-, rfl, hacc⟩ | ⟨-, hrej⟩⟩ := track_ok h
  · obtain ⟨filter, localMap, hf, -, rfl⟩ := acceptTrack_ok hacc
    rcases smoothConfident_ok hf with ⟨-, hf⟩ | ⟨-, rfl⟩
    · exact .smoothed hinit hinit' hf
    · exact .kept hinit hinit' rfl
  · rcases rejectTrack_ok hrej with ⟨g, _, -, hg, -, rfl, hlock, rfl⟩ | ⟨-, -, rfl⟩
    · obtain ⟨f, localMap, hseed, -, rfl⟩ := lock_ok hlock
      exact .locked hinit' hg (fun hn => by cases hn.symm.trans hinit) rfl hseed rfl
    · exact .kept hinit hinit' rfl

lemma filterCase_of_firstLocalize (hinit : n.initialized = false)
    (h : n.firstLocalize lib cfg full scan tick.globalIcp = .ok (n', o)) :
    FilterCase lib cfg n tick.globalIcp n' o := by
  obtain ⟨floorZ, g, hg, ⟨hgates, rfl, _, hlock, rfl⟩ | ⟨hgates, rfl, rfl⟩⟩ := firstLocalize_ok h
  · obtain ⟨f, localMap, hseed, -, rfl⟩ := lock_ok hlock
    exact .locked rfl hg (fun _ => hgates) rfl hseed rfl
  · exact .weak hinit hinit hg hgates rfl

lemma filterCase_of_ok (h : n.firstLocalizeOrTrack lib cfg full scan tick = .ok (n', o)) :
    FilterCase lib cfg n tick.globalIcp n' o := by
  rcases firstLocalizeOrTrack_ok h with ⟨hinit, h⟩ | ⟨hinit, h⟩
  · exact filterCase_of_track hinit h
  · exact filterCase_of_firstLocalize hinit h

end Node

namespace World

/-! ### Runs -/

/-- The filters of an initialized node are derived from what was accepted; before, nothing was
accepted. -/
structure Provenance (lib : ThirdParty F) (cfg : Config F) (w : World F) : Prop where
  vars : w.node.filter.HasVars cfg
  nil : w.node.initialized = false → w.accepted = []
  derived : w.node.initialized = true →
    ∃ Ts, Derived lib cfg Ts w.node.filter ∧ ∀ T ∈ Ts, T ∈ w.accepted

lemma provenance_init : (init lib cfg mapData).Provenance lib cfg where
  vars := ⟨⟨rfl, rfl⟩, ⟨rfl, rfl⟩, ⟨rfl, rfl⟩, ⟨rfl, rfl⟩⟩
  nil _ := rfl
  derived h := by cases h

/-- A step that leaves the filters. -/
lemma Provenance.congr (h : w.Provenance lib cfg) (hf : w'.node.filter = w.node.filter)
    (hinit : w'.node.initialized = w.node.initialized) (ha : w'.accepted = w.accepted) :
    w'.Provenance lib cfg where
  vars := hf ▸ h.vars
  nil hn := ha ▸ h.nil (hinit ▸ hn)
  derived hn := by
    rw [hf, ha]
    exact h.derived (hinit ▸ hn)

/-- A tick with a scan. -/
lemma Provenance.filterCase (h : w.Provenance lib cfg) (hn : Node.SamePose w.node n)
    (hcase : Node.FilterCase lib cfg n tick.globalIcp w'.node o)
    (ha : w'.accepted = w.accepted ++ o.accepted.toList) : w'.Provenance lib cfg := by
  have hvars : n.filter.HasVars cfg := hn.filter ▸ h.vars
  have hderived (hinit : n.initialized = true) :
      ∃ Ts, Derived lib cfg Ts n.filter ∧ ∀ T ∈ Ts, T ∈ w.accepted := by
    rw [hn.filter]
    exact h.derived (hn.initialized ▸ hinit)
  cases hcase with
  | weak hinit hinit' _ _ hf =>
    refine ⟨?_, fun _ => ?_, fun hm => by cases hm.symm.trans hinit'⟩
    · rw [hf]
      exact ⟨hvars.x, hvars.y, hvars.z, hvars.yaw⟩
    · rw [ha, h.nil (hn.initialized ▸ hinit)]
      rfl
  | @locked g z f o hinit' _ _ ho hseed hf =>
    refine ⟨?_, fun hm => (by cases hm.symm.trans hinit'), fun _ => ⟨[g.T], ?_, ?_⟩⟩
    · have := hvars.seed hseed
      rw [hf]
      exact ⟨this.x, this.y, this.z, this.yaw⟩
    · rw [hf]
      exact .lock (hvars.ofPose_of_seed hseed)
    · simp [ha, ho]
  | @smoothed T z hinit hinit' hf =>
    obtain ⟨Ts, hTs, hsub⟩ := hderived hinit
    refine ⟨hvars.smooth hf, fun hm => (by cases hm.symm.trans hinit'),
      fun _ => ⟨Ts ++ [T], hTs.smooth hf, ?_⟩⟩
    intro S hS
    rw [ha]
    rcases List.mem_append.mp hS with hS | hS
    · exact List.mem_append_left _ (hsub S hS)
    · exact List.mem_append_right _ hS
  | kept hinit hinit' hf =>
    obtain ⟨Ts, hTs, hsub⟩ := hderived hinit
    refine ⟨hf ▸ hvars, fun hm => (by cases hm.symm.trans hinit'), fun _ => ⟨Ts, hf ▸ hTs, ?_⟩⟩
    exact fun T hT => ha ▸ List.mem_append_left _ (hsub T hT)

lemma Provenance.step (h : w.Provenance lib cfg) (hstep : w.step lib cfg mapData e = some w') :
    w'.Provenance lib cfg := by
  cases e with
  | cloud _ _ | odom _ _ =>
    cases hstep
    exact h.congr rfl rfl rfl
  | tick tick =>
    cases tick_cases hstep with
    | idle _ hn ha | frozen _ hn ha => exact h.congr hn.filter hn.initialized ha
    | scan _ hn ho ha => exact h.filterCase hn (Node.filterCase_of_ok ho) ha

/-- What an initialized node sends is trusted. -/
lemma Provenance.trusted (h : w.Provenance lib cfg) (hinit : w.node.initialized = true)
    {ts : TransformStamped F} (hts : toTransform lib w.node.filter.tPublished = .ok ts.transform) :
    Trusted lib cfg ⟨ts, w.accepted⟩ := by
  obtain ⟨Ts, hTs, hsub⟩ := h.derived hinit
  exact Or.inr ⟨Ts, _, hTs, hsub, hts⟩

/-- A candidate for the first lock that fails its gates is at the hint. -/
def WeakIsHint (lib : ThirdParty F) (cfg : Config F) (w : World F) : Event F → Prop
  | .cloud _ _ | .odom _ _ => True
  | .tick tick => ∀ scan g, w.node.initialized = false → Node.Scans lib cfg w.node tick scan →
      tick.globalIcp = .ok g → Node.firstGates lib cfg g = .ok false → AtHint lib cfg g.T

lemma weakIsHint_of_initialized (hinit : w.node.initialized = true) :
    WeakIsHint lib cfg w (.tick tick) :=
  fun _ _ hn => by cases hn.symm.trans hinit

/-- What is sent by a tick with a scan is trusted if and only if no weak candidate is off the
hint. -/
lemma trusted_iff_weakIsHint {ts : TransformStamped F} (h' : w'.Provenance lib cfg)
    (hscan : Node.Scans lib cfg w.node tick scan) (hn : Node.SamePose w.node n)
    (hcase : Node.FilterCase lib cfg n tick.globalIcp w'.node o)
    (ha : w'.accepted = w.accepted ++ o.accepted.toList)
    (hts : toTransform lib w'.node.filter.tPublished = .ok ts.transform) :
    Trusted lib cfg ⟨ts, w'.accepted⟩ ↔ WeakIsHint lib cfg w (.tick tick) := by
  cases hcase with
  | @weak g z hinit hinit' hg hgates hf =>
    rw [hn.initialized] at hinit
    rw [h'.nil hinit', trusted_iff_of_nil]
    rw [hf] at hts
    rw [hintLike_iff_atHint hts]
    constructor
    · intro hhint scan' g' _ _ hg' _
      cases hg.symm.trans hg'
      exact hhint
    · exact fun hweak => hweak scan g hinit hscan hg hgates
  | locked hinit' hg hgates =>
    refine iff_of_true (h'.trusted hinit' hts) fun _ g' hinit _ hg' hgates' => ?_
    cases hg.symm.trans hg'
    cases (hgates (hn.initialized.trans hinit)).symm.trans hgates'
  | smoothed hinit hinit' | kept hinit hinit' =>
    exact iff_of_true (h'.trusted hinit' hts)
      (weakIsHint_of_initialized (hn.initialized.symm.trans hinit))

/-- One step. -/
lemma trusted_step_iff (h : w.Provenance lib cfg) (hstep : w.step lib cfg mapData e = some w') :
    (∀ b ∈ w'.broadcasts, Trusted lib cfg b) ↔
      (∀ b ∈ w.broadcasts, Trusted lib cfg b) ∧ WeakIsHint lib cfg w e := by
  have h' := h.step hstep
  have snoc {b : Broadcast F} (hb : w'.broadcasts = w.broadcasts ++ [b])
      (hiff : Trusted lib cfg b ↔ WeakIsHint lib cfg w e) :
      (∀ b ∈ w'.broadcasts, Trusted lib cfg b) ↔
        (∀ b ∈ w.broadcasts, Trusted lib cfg b) ∧ WeakIsHint lib cfg w e := by
    rw [hb, List.forall_mem_append, List.forall_mem_singleton, hiff]
  cases e with
  | cloud _ _ | odom _ _ =>
    cases hstep
    exact (and_iff_left trivial).symm
  | tick tick =>
    cases tick_cases hstep with
    | idle hnone _ _ hb =>
      rw [hb]
      exact (and_iff_left fun scan _ _ hscan => (hnone scan hscan).elim).symm
    | frozen hfrozen hn _ hts hb =>
      have hinit : w.node.initialized = true := (Bool.and_eq_true_iff.mp hfrozen).2
      refine snoc hb (iff_of_true (h'.trusted ?_ ?_) (weakIsHint_of_initialized hinit))
      · exact hn.initialized.trans hinit
      · rwa [hn.filter]
    | scan hscan hn ho ha hts hb =>
      exact snoc hb (trusted_iff_weakIsHint h' hscan hn (Node.filterCase_of_ok ho) ha hts)

/-- All broadcasts of a run are trusted if and only if no tick of the run has a weak candidate
off the hint. -/
theorem trusted_iff (hrun : Run (step lib cfg mapData) (init lib cfg mapData) es w) :
    (∀ b ∈ w.broadcasts, Trusted lib cfg b) ↔
      Always (step lib cfg mapData) (init lib cfg mapData) (WeakIsHint lib cfg) es :=
  iff_always (I := Provenance lib cfg) provenance_init (fun _ _ _ h => h.step)
    (fun _ hb => by cases hb) (fun _ _ _ => trusted_step_iff) hrun

section

attribute [local instance] PyFloat.exact

/-- The first tick locks on the hint. -/
theorem trusted_iff_after_lock : ∃ w, Run (step .level {} .point) (init .level {} .point)
      [.cloud (.replicate 200 ⟨0, 0, 0⟩) ⟨0, 0⟩, .tick (.level 0 1)] w ∧
    ((∀ b ∈ w.broadcasts, Trusted .level {} b) ↔
      Always (step .level {} .point) (init .level {} .point) (WeakIsHint .level {})
        [.cloud (.replicate 200 ⟨0, 0, 0⟩) ⟨0, 0⟩, .tick (.level 0 1)]) := by
  obtain ⟨w, hw, -⟩ := exists_run (step .level {} .point) (init .level {} .point)
    [.cloud (.replicate 200 ⟨0, 0, 0⟩) ⟨0, 0⟩, .tick (.level 0 1)]
    (fun w => w.node.initialized = true) (by decide +kernel)
  exact ⟨w, hw, trusted_iff hw⟩

/-- The global ICP returns a candidate one metre away from the hint whose fitness is `0.1`. It is
broadcast. -/
theorem weak_candidate_broadcast : ∃ w, Run (step .level {} .point) (init .level {} .point)
      [.cloud (.replicate 200 ⟨0, 0, 0⟩) ⟨0, 0⟩, .tick (.level 1 (1 / 10))] w ∧
    ¬∀ b ∈ w.broadcasts, Trusted .level {} b := by
  obtain ⟨w, hw, b, hb, ha, hx⟩ := exists_run (step .level {} .point)
    (init .level {} .point)
    [.cloud (.replicate 200 ⟨0, 0, 0⟩) ⟨0, 0⟩, .tick (.level 1 (1 / 10))]
    (fun w => ∃ b ∈ w.broadcasts, b.accepted = [] ∧
      b.transform.transform.translation.x = 1) (by decide +kernel)
  refine ⟨w, hw, fun h => ?_⟩
  have htrusted : Trusted .level {} ⟨b.transform, []⟩ := ha ▸ h b hb
  obtain ⟨-, hhint, -⟩ := trusted_iff_of_nil.mp htrusted
  exact absurd (hx.symm.trans hhint) (by decide +kernel)

end

end World
end Localizer
