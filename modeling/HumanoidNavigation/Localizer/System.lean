import HumanoidNavigation.Localizer.Node
import HumanoidNavigation.Transition.Run

/-!
# Runs of the localizer

`World` is the node together with what it has broadcast and the candidates it has accepted, and
`step` delivers a scan, an odometry message or a timer tick. The first part of the module says
what each function of the node does when it does not raise.
-/

namespace Localizer

open PyFloat Except Ros

variable {F : Type} [PyFloat F] {lib : ThirdParty F} {cfg : Config F} {n n' : Node F}
  {full scan : List (Vector3 F)} {T : Mat4 F} {c g : IcpResult F}
  {trackIcp globalIcp : Except PyError (IcpResult F)} {o : Outcome F} {b : Bool}

/-! ### Poses -/

omit [PyFloat F] in
@[simp] lemma rotation_withZ (T : Mat4 F) (z : F) : rotation (withZ T z) = rotation T := by
  funext i j
  fin_cases i <;> fin_cases j <;> rfl

/-- Roll and pitch are within their bound. -/
def TiltBounded (lib : ThirdParty F) (cfg : Config F) (T : Mat4 F) : Prop :=
  ∃ roll pitch, rollPitchDeg lib T = .ok (roll, pitch) ∧ le roll cfg.maxRollPitchDeg = true ∧
    le pitch cfg.maxRollPitchDeg = true

lemma tiltBounded_of_goodAttitude (h : goodAttitude lib cfg T = .ok true) :
    TiltBounded lib cfg T := by
  obtain ⟨⟨roll, pitch⟩, hrp, h⟩ := bind_eq_ok.mp h
  obtain ⟨hroll, hpitch⟩ := Bool.and_eq_true_iff.mp (Except.ok.inj h)
  exact ⟨roll, pitch, hrp, hroll, hpitch⟩

namespace Node

/-! ### Gates -/

lemma firstGates_eq_true (h : firstGates lib cfg g = .ok true) :
    TiltBounded lib cfg g.T ∧ le cfg.minFitnessReloc g.fitness = true ∧
      le (planarNorm (g.T 0 3 - cfg.initialPosition.x) (g.T 1 3 - cfg.initialPosition.y))
        cfg.maxInitDistFromHint = true := by
  obtain ⟨attitude, ha, h⟩ := bind_eq_ok.mp h
  obtain ⟨⟨hfit, rfl⟩, hnear⟩ :
      (le cfg.minFitnessReloc g.fitness = true ∧ attitude = true) ∧ _ := by
    simpa only [Bool.and_eq_true] using Except.ok.inj h
  exact ⟨tiltBounded_of_goodAttitude ha, hfit, hnear⟩

lemma recoveryGates_eq_true (h : n.recoveryGates lib cfg g = .ok true) :
    TiltBounded lib cfg g.T ∧
      le (planarDist g.T n.tMapCam) cfg.maxRecoveryDriftFromPrior = true := by
  obtain ⟨attitude, ha, h⟩ := bind_eq_ok.mp h
  obtain ⟨⟨-, rfl⟩, hnear⟩ : (_ ∧ attitude = true) ∧ _ := by
    simpa only [Bool.and_eq_true] using Except.ok.inj h
  exact ⟨tiltBounded_of_goodAttitude ha, hnear⟩

/-- An accepted candidate is below the ceiling, and past the drift budget it is decisively
better than the prior pose. -/
lemma trackGates_eq_true (h : n.trackGates lib cfg scan c = .ok true) :
    TiltBounded lib cfg c.T ∧ le (planarDist c.T n.tMapCam) cfg.maxDposePerTick = true ∧
      (le (planarDist c.T n.tMapCam) (n.effectiveBudget cfg) = false →
        ∃ prior, n.evalFitness lib cfg scan n.tMapCam = .ok prior ∧
          le (prior + cfg.jumpFitnessMargin) c.fitness = true) := by
  obtain ⟨attitude, ha, h⟩ := bind_eq_ok.mp h
  obtain ⟨justified, hj, h⟩ := bind_eq_ok.mp h
  obtain ⟨⟨⟨-, hceil⟩, hbudget⟩, rfl⟩ : ((_ ∧ le (planarDist c.T n.tMapCam)
      cfg.maxDposePerTick = true) ∧ (_ ∨ justified = true)) ∧ attitude = true := by
    simpa only [Bool.and_eq_true, Bool.or_eq_true] using Except.ok.inj h
  refine ⟨tiltBounded_of_goodAttitude ha, hceil, fun hpast => ?_⟩
  rcases hbudget with hwithin | rfl
  · cases hwithin.symm.trans hpast
  · simp only [justified, hpast, hceil, Bool.not_false, Bool.and_true, if_true] at hj
    obtain ⟨prior, hprior, hle⟩ := bind_eq_ok.mp hj
    exact ⟨prior, hprior, Except.ok.inj hle⟩

/-! ### State writes -/

lemma lock_ok (h : n.lock lib cfg full T = .ok n') :
    ∃ filter localMap, n.filter.seedKalmansFromT lib (n.withFloorZ T) = .ok filter ∧
      n.localMap.rebuild lib cfg full (T 0 3) (T 1 3) = .ok localMap ∧
      n' = { n with
        tMapCam := T
        filter := { filter with tPublished := n.withFloorZ T }
        settleTicks := settleTicksAfterLock
        localMap := localMap } := by
  obtain ⟨filter, hf, h⟩ := bind_eq_ok.mp h
  obtain ⟨localMap, hm, h⟩ := bind_eq_ok.mp h
  exact ⟨filter, localMap, hf, hm, (Except.ok.inj h).symm⟩

lemma firstLocalize_ok (h : n.firstLocalize lib cfg full scan globalIcp = .ok (n', o)) :
    ∃ floorZ g, globalIcp = .ok g ∧
      ((firstGates lib cfg g = .ok true ∧ o = .locked g.T ∧
          ∃ m, { n with floorZWorld := floorZ }.lock lib cfg full g.T = .ok m ∧
            n' = { m with initialized := true }) ∨
        firstGates lib cfg g = .ok false ∧ o = .weak g.T ∧
          n' = { n with
            floorZWorld := floorZ
            filter := { n.filter with tPublished := withZ g.T (-floorZ) } }) := by
  obtain ⟨floorZ, -, h⟩ := bind_eq_ok.mp h
  obtain ⟨g, hg, h⟩ := bind_eq_ok.mp h
  obtain ⟨b, hb, h⟩ := bind_eq_ok.mp h
  refine ⟨floorZ, g, hg, ?_⟩
  cases b with
  | true =>
    obtain ⟨m, hm, h⟩ := bind_eq_ok.mp h
    cases h
    exact Or.inl ⟨hb, rfl, m, hm, rfl⟩
  | false =>
    cases h
    exact Or.inr ⟨hb, rfl, rfl⟩

/-- Only a candidate that passes the confidence gate is smoothed in. -/
lemma smoothConfident_ok {filter : PoseFilter F} (h : n.smoothConfident lib cfg c = .ok filter) :
    (le cfg.confidenceTh c.fitness = true ∧
        n.filter.smoothTf lib cfg (n.withFloorZ c.T) = .ok filter) ∨
      le cfg.confidenceTh c.fitness = false ∧ filter = n.filter := by
  simp only [smoothConfident] at h
  split_ifs at h with hle
  · exact Or.inl ⟨hle, h⟩
  · exact Or.inr ⟨by simpa using hle, (Except.ok.inj h).symm⟩

lemma acceptTrack_ok (h : n.acceptTrack lib cfg full c = .ok n') :
    ∃ filter localMap, n.smoothConfident lib cfg c = .ok filter ∧
      n.updateLocalMap lib cfg full (c.T 0 3) (c.T 1 3) = .ok localMap ∧
      n' = { n with tMapCam := c.T, filter := filter, lostCount := 0, localMap := localMap } := by
  obtain ⟨filter, hf, h⟩ := bind_eq_ok.mp h
  obtain ⟨localMap, hm, h⟩ := bind_eq_ok.mp h
  exact ⟨filter, localMap, hf, hm, (Except.ok.inj h).symm⟩

lemma rejectTrack_ok (h : n.rejectTrack lib cfg full globalIcp = .ok (n', o)) :
    (∃ g m, cfg.relocalizeAfterNLosses ≤ (n.lostCount + 1 : ℕ) ∧ globalIcp = .ok g ∧
      n.recoveryGates lib cfg g = .ok true ∧ o = .relocalized g.T ∧
      { n with lostCount := n.lostCount + 1 }.lock lib cfg full g.T = .ok m ∧
      n' = { m with lostCount := 0 }) ∨
    (cfg.relocalizeAfterNLosses ≤ (n.lostCount + 1 : ℕ) →
      ∃ g, globalIcp = .ok g ∧ n.recoveryGates lib cfg g = .ok false) ∧
      o = .held ∧ n' = { n with lostCount := n.lostCount + 1 } := by
  simp only [rejectTrack] at h
  split_ifs at h with hlost
  · obtain ⟨g, hg, h⟩ := bind_eq_ok.mp h
    obtain ⟨b, hb, h⟩ := bind_eq_ok.mp h
    cases b with
    | true =>
      obtain ⟨m, hm, h⟩ := bind_eq_ok.mp h
      cases h
      exact Or.inl ⟨g, m, hlost, hg, hb, rfl, hm, rfl⟩
    | false =>
      cases h
      exact Or.inr ⟨fun _ => ⟨g, hg, hb⟩, rfl, rfl⟩
  · cases h
    exact Or.inr ⟨fun hle => absurd hle hlost, rfl, rfl⟩

lemma track_ok (h : n.track lib cfg full scan trackIcp globalIcp = .ok (n', o)) :
    ∃ c, trackIcp = .ok c ∧
      ((n.trackGates lib cfg scan c = .ok true ∧ o = .tracked c.T ∧
          { n with settleTicks := n.settleTicks - 1 }.acceptTrack lib cfg full c = .ok n') ∨
        n.trackGates lib cfg scan c = .ok false ∧
          { n with settleTicks := n.settleTicks - 1 }.rejectTrack lib cfg full globalIcp =
            .ok (n', o)) := by
  obtain ⟨c, hc, h⟩ := bind_eq_ok.mp h
  obtain ⟨b, hb, h⟩ := bind_eq_ok.mp h
  refine ⟨c, hc, ?_⟩
  cases b with
  | true =>
    obtain ⟨m, hm, h⟩ := bind_eq_ok.mp h
    cases h
    exact Or.inl ⟨hb, rfl, hm⟩
  | false => exact Or.inr ⟨hb, h⟩

/-! ### The timer -/

/-- The data of the pose is the same. -/
structure SamePose (n n' : Node F) : Prop where
  tMapCam : n'.tMapCam = n.tMapCam
  filter : n'.filter = n.filter
  localMap : n'.localMap = n.localMap
  initialized : n'.initialized = n.initialized
  lostCount : n'.lostCount = n.lostCount
  settleTicks : n'.settleTicks = n.settleTicks
  robotSpeed : n'.robotSpeed = n.robotSpeed

omit [PyFloat F] in
lemma samePose_tryGetGravityTf {q : Option (Quaternion F)} :
    SamePose n (n.tryGetGravityTf lib q) := by
  simp only [tryGetGravityTf]
  split
  · split <;> exact ⟨rfl, rfl, rfl, rfl, rfl, rfl, rfl⟩
  · exact ⟨rfl, rfl, rfl, rfl, rfl, rfl, rfl⟩

omit [PyFloat F] in
@[simp] lemma latestCloud_tryGetGravityTf {q : Option (Quaternion F)} :
    (n.tryGetGravityTf lib q).latestCloud = n.latestCloud := by
  simp only [tryGetGravityTf]
  split
  · split <;> rfl
  · rfl

omit [PyFloat F] in
/-- The rotation after `_try_get_gravity_tf` depends on the rotation before alone. -/
lemma camToWorldR_tryGetGravityTf {q : Option (Quaternion F)}
    (h : n'.camToWorldR = n.camToWorldR) :
    (n'.tryGetGravityTf lib q).camToWorldR = (n.tryGetGravityTf lib q).camToWorldR := by
  simp only [tryGetGravityTf, h]
  split
  · split <;> simp_all
  · exact h

/-- A tick hands `scan` to `_first_localize` or `_track`: the pose is not frozen, the gravity
transform is known and the latest cloud has enough points. -/
def Scans (lib : ThirdParty F) (cfg : Config F) (n : Node F) (tick : Tick F)
    (scan : List (Vector3 F)) : Prop :=
  (cfg.freezeAfterInit && n.initialized) = false ∧
    ∃ R cloud pubs, (n.tryGetGravityTf lib tick.gravityTf).camToWorldR = some R ∧
      n.latestCloud = some cloud ∧ 200 ≤ cloud.length ∧
      prepareScan lib cfg R cloud = .ok (scan, pubs)

omit [PyFloat F] in
lemma matrixToRosTf_ok {stamp : Stamp} {parent child : String} {ts : TransformStamped F}
    (h : matrixToRosTf lib T stamp parent child = .ok ts) :
    toTransform lib T = .ok ts.transform := by
  obtain ⟨t, ht, h⟩ := bind_eq_ok.mp h
  cases h
  exact ht

lemma firstLocalizeOrTrack_ok {tick : Tick F}
    (h : n.firstLocalizeOrTrack lib cfg full scan tick = .ok (n', o)) :
    (n.initialized = true ∧
      n.track lib cfg full scan tick.trackIcp tick.globalIcp = .ok (n', o)) ∨
    n.initialized = false ∧ n.firstLocalize lib cfg full scan tick.globalIcp = .ok (n', o) := by
  simp only [firstLocalizeOrTrack] at h
  split_ifs at h with hinit
  · exact Or.inl ⟨hinit, h⟩
  · exact Or.inr ⟨by simpa using hinit, h⟩

lemma localizeScan_ok {tick : Tick F} {ts : TransformStamped F}
    (h : n.localizeScan lib cfg full scan tick = .ok (n', ts, o)) :
    n.firstLocalizeOrTrack lib cfg full scan tick = .ok (n', o) ∧
      toTransform lib n'.filter.tPublished = .ok ts.transform := by
  obtain ⟨⟨m, o'⟩, hm, h⟩ := bind_eq_ok.mp h
  obtain ⟨ts', hts, h⟩ := bind_eq_ok.mp h
  cases h
  exact ⟨hm, matrixToRosTf_ok hts⟩

end Node

/-! ### The system -/

/-- The candidate that was accepted. -/
def Outcome.accepted : Outcome F → Option (Mat4 F)
  | locked T | tracked T | relocalized T => some T
  | idle | weak _ | held => none

/-- The transform that is broadcast. -/
def Publication.transform : Publication F → Option (TransformStamped F)
  | tf ts | staticTf ts => some ts
  | mapCloud _ | filteredScan _ => none

/-- A transform that `_publish_tf` or the frozen path sent, with the candidates that had been
accepted by then. -/
structure Broadcast (F : Type) where
  transform : TransformStamped F
  accepted : List (Mat4 F)

structure World (F : Type) where
  node : Node F
  /-- the candidates that passed their gates -/
  accepted : List (Mat4 F) := []
  broadcasts : List (Broadcast F) := []

inductive Event (F : Type) where
  | cloud (pts : List (Vector3 F)) (stamp : Stamp)
  | odom (pos : Vector3 F) (stamp : Stamp)
  | tick (tick : Tick F)

lemma Node.prepareScan_ok {R : Mat3 F} {cloud : List (Vector3 F)}
    {pubs : List (Publication F)} (h : prepareScan lib cfg R cloud = .ok (scan, pubs)) :
    pubs.filterMap Publication.transform = [] := by
  obtain ⟨z, -, h⟩ := bind_eq_ok.mp h
  obtain ⟨scan', -, h⟩ := bind_eq_ok.mp h
  cases h
  split_ifs <;> rfl

lemma Node.localizeCloud_ok {tick : Tick F} {pubs : List (Publication F)}
    (h : n.localizeCloud lib cfg full tick = .ok (n', pubs, o)) :
    (n' = n ∧ o = .idle ∧ pubs.filterMap Publication.transform = [] ∧
      ∀ R cloud, n.camToWorldR = some R → n.latestCloud = some cloud → cloud.length < 200) ∨
    ∃ R cloud scan filtered ts, n.camToWorldR = some R ∧ n.latestCloud = some cloud ∧
      200 ≤ cloud.length ∧ prepareScan lib cfg R cloud = .ok (scan, filtered) ∧
      n.localizeScan lib cfg full scan tick = .ok (n', ts, o) ∧
      pubs.filterMap Publication.transform = [ts] := by
  simp only [localizeCloud] at h
  split at h
  · next R cloud hR hcloud =>
    split_ifs at h with hlen
    · cases h
      refine Or.inl ⟨rfl, rfl, rfl, fun _ _ _ hcloud' => ?_⟩
      cases hcloud.symm.trans hcloud'
      exact hlen
    · obtain ⟨⟨scan, filtered⟩, hscan, h⟩ := bind_eq_ok.mp h
      obtain ⟨⟨m, ts, o'⟩, hm, h⟩ := bind_eq_ok.mp h
      cases h
      refine Or.inr ⟨R, cloud, scan, filtered, ts, hR, hcloud, not_lt.mp hlen, hscan, hm, ?_⟩
      rw [List.filterMap_append, prepareScan_ok hscan]
      rfl
  · next hnone =>
    cases h
    exact Or.inl ⟨rfl, rfl, rfl, fun R cloud hR hcloud => (hnone R cloud hR hcloud).elim⟩

omit [PyFloat F] in
lemma Node.filterMap_mapPublication {mapData : MapData F} :
    (n.mapPublication mapData).filterMap Publication.transform = [] := by
  simp only [mapPublication]
  split_ifs <;> rfl

/-- `_localize` sends nothing, sends the frozen pose, or works on a scan and sends the pose. -/
lemma Node.localize_ok {mapData : MapData F} {tick : Tick F} {pubs : List (Publication F)}
    (h : n.localize lib cfg mapData tick = .ok (n', pubs, o)) :
    (SamePose n n' ∧ o = .idle ∧ pubs.filterMap Publication.transform = [] ∧
      ∀ scan, ¬Scans lib cfg n tick scan) ∨
    (SamePose n n' ∧ o = .idle ∧ (cfg.freezeAfterInit && n.initialized) = true ∧ ∃ ts,
      toTransform lib n.filter.tPublished = .ok ts.transform ∧
        pubs.filterMap Publication.transform = [ts]) ∨
    ∃ m scan ts, SamePose n m ∧ Scans lib cfg n tick scan ∧
      m.localizeScan lib cfg mapData.full scan tick = .ok (n', ts, o) ∧
      pubs.filterMap Publication.transform = [ts] := by
  simp only [localize] at h
  split_ifs at h with hfrozen hsent
  · cases h
    refine Or.inl ⟨⟨rfl, rfl, rfl, rfl, rfl, rfl, rfl⟩, rfl, rfl, fun scan hscan => ?_⟩
    cases hfrozen.symm.trans hscan.1
  · obtain ⟨ts, hts, h⟩ := bind_eq_ok.mp h
    cases h
    exact Or.inr (Or.inl ⟨⟨rfl, rfl, rfl, rfl, rfl, rfl, rfl⟩, rfl, hfrozen, ts,
      matrixToRosTf_ok hts, rfl⟩)
  · obtain ⟨⟨m, pubs', o'⟩, hm, h⟩ := bind_eq_ok.mp h
    cases h
    have hsame : SamePose n ({ n with mapPublished := true }.tryGetGravityTf lib
        tick.gravityTf) := by
      obtain ⟨h₁, h₂, h₃, h₄, h₅, h₆, h₇⟩ :
          SamePose { n with mapPublished := true } _ := samePose_tryGetGravityTf
      exact ⟨h₁, h₂, h₃, h₄, h₅, h₆, h₇⟩
    have hR : ({ n with mapPublished := true }.tryGetGravityTf lib tick.gravityTf).camToWorldR =
        (n.tryGetGravityTf lib tick.gravityTf).camToWorldR := camToWorldR_tryGetGravityTf rfl
    rw [List.filterMap_append, filterMap_mapPublication, List.nil_append]
    rcases localizeCloud_ok hm with ⟨rfl, rfl, hpubs, hnone⟩ |
      ⟨R, cloud, scan, filtered, ts, hR', hcloud, hlen, hprep, hscan, hpubs⟩
    · refine Or.inl ⟨hsame, rfl, hpubs, ?_⟩
      rintro scan ⟨-, R, cloud, -, hR', hcloud, hlen, -⟩
      rw [← hR] at hR'
      exact absurd (hnone R cloud hR' (latestCloud_tryGetGravityTf.trans hcloud)) (not_lt.mpr hlen)
    · refine Or.inr (Or.inr ⟨_, scan, ts, hsame, ?_, hscan, hpubs⟩)
      rw [latestCloud_tryGetGravityTf] at hcloud
      exact ⟨by simpa using hfrozen, R, cloud, filtered, hR ▸ hR', hcloud, hlen, hprep⟩

namespace World

/-- The localizer when it is started. -/
def init (lib : ThirdParty F) (cfg : Config F) (mapData : MapData F) : World F where
  node := .init lib cfg mapData

/-- Deliver one event; `none` when an exception ends the node. -/
def step (lib : ThirdParty F) (cfg : Config F) (mapData : MapData F) (w : World F) :
    Event F → Option (World F)
  | .cloud pts stamp => some { w with node := w.node.cloudCb pts stamp }
  | .odom pos stamp => some { w with node := w.node.odomCb pos stamp }
  | .tick tick =>
    match w.node.localize lib cfg mapData tick with
    | .ok (n, pubs, outcome) =>
      let accepted := w.accepted ++ outcome.accepted.toList
      let sent := pubs.filterMap Publication.transform
      some
        { node := n
          accepted := accepted
          broadcasts := w.broadcasts ++ sent.map fun ts => ⟨ts, accepted⟩ }
    | .error _ => none

/-- What a tick can do. -/
inductive TickCase (lib : ThirdParty F) (cfg : Config F) (mapData : MapData F) (w : World F)
    (tick : Tick F) (w' : World F) : Prop where
  /-- There is no scan to use, or the pose is frozen and was sent. -/
  | idle (hnone : ∀ scan, ¬Node.Scans lib cfg w.node tick scan)
      (hn : Node.SamePose w.node w'.node) (ha : w'.accepted = w.accepted)
      (hb : w'.broadcasts = w.broadcasts)
  | frozen {ts : TransformStamped F}
      (hfrozen : (cfg.freezeAfterInit && w.node.initialized) = true)
      (hn : Node.SamePose w.node w'.node) (ha : w'.accepted = w.accepted)
      (hts : toTransform lib w.node.filter.tPublished = .ok ts.transform)
      (hb : w'.broadcasts = w.broadcasts ++ [⟨ts, w'.accepted⟩])
  | scan {n : Node F} {scan : List (Vector3 F)} {ts : TransformStamped F} {o : Outcome F}
      (hscan : Node.Scans lib cfg w.node tick scan) (hn : Node.SamePose w.node n)
      (ho : n.firstLocalizeOrTrack lib cfg mapData.full scan tick = .ok (w'.node, o))
      (ha : w'.accepted = w.accepted ++ o.accepted.toList)
      (hts : toTransform lib w'.node.filter.tPublished = .ok ts.transform)
      (hb : w'.broadcasts = w.broadcasts ++ [⟨ts, w'.accepted⟩])

variable {mapData : MapData F} {w w' : World F} {tick : Tick F} {e : Event F}

lemma tick_cases (h : w.step lib cfg mapData (.tick tick) = some w') :
    TickCase lib cfg mapData w tick w' := by
  simp only [step] at h
  split at h
  · next n pubs o hok =>
    cases h
    rcases Node.localize_ok hok with ⟨hn, rfl, hpubs, hnone⟩ |
      ⟨hn, rfl, hfrozen, ts, hts, hpubs⟩ | ⟨m, scan, ts, hn, hscan, hm, hpubs⟩
    · exact .idle hnone hn (List.append_nil _) (by simp [hpubs])
    · exact .frozen hfrozen hn (List.append_nil _) hts (by simp [hpubs])
    · obtain ⟨ho, hts⟩ := Node.localizeScan_ok hm
      exact .scan hscan hn ho rfl hts (by simp [hpubs])
  · cases h

end World

/-! ### Level poses

The library functions where every rotation is the identity and all points of a cloud are the same;
elsewhere they have no meaning. They are for concrete runs. -/

section

attribute [local instance] PyFloat.exact

/-- `np.eye(3)` -/
def eye : Mat3 ℚ := fun i j => if i = j then 1 else 0

def ThirdParty.level : ThirdParty ℚ where
  quantile
    | [], _ => .error .indexError
    | x :: _, _ => .ok x
  voxelDownSample pts _ := .ok pts.dedup
  estimateNormals pts _ := .ok (pts.map fun _ => ⟨0, 0, 1⟩)
  query tree p := if p ∈ tree.points then 0 else 1
  asEuler _ _ := .ok ⟨0, 0, 0⟩
  fromYaw _ := eye
  fromEulerDeg _ := eye
  asQuat _ := .ok ⟨0, 0, 0, 1⟩
  fromQuat _ := .ok eye
  slerp _ _ _ := .ok eye
  deg2rad x := x * (884279719003555 / 281474976710656) / 180

/-- A map with all points at the origin. -/
def MapData.point : MapData ℚ where
  full := .replicate 200 ⟨0, 0, 0⟩
  display := [⟨0, 0, 0⟩]
  localMap := ⟨[⟨0, 0, 0⟩], ⟨[⟨0, 0, 0⟩]⟩, [(0, 0)], ⟨[(0, 0)]⟩, [⟨0, 0, 1⟩], none⟩

/-- A tick on which both ICP calls return the level pose at `x` with the given fitness. -/
def Tick.level (x fitness : ℚ) : Tick ℚ where
  clock := ⟨0, 0⟩
  gravityTf := some ⟨0, 0, 0, 1⟩
  trackIcp := .ok ⟨poseOf eye ⟨x, 0, 0⟩, fitness, 0⟩
  globalIcp := .ok ⟨poseOf eye ⟨x, 0, 0⟩, fitness, 0⟩

end

end Localizer
