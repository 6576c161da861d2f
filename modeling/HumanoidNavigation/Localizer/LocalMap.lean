import HumanoidNavigation.Localizer.Drift
import HumanoidNavigation.Localizer.Icp

/-!
# The local map

A lock, and a tracking candidate far from the centre of the local map, let `_rebuild_local_map`
replace the target of ICP. The function counts the points of the map in the radius before it
leaves out those that are too high or too low, so it can replace the target by an empty one.
`RebuildsAt` says which steps rebuild, and where. In a run the target stays usable if and only if
wherever it is rebuilt there are too few points, or one between the height limits. `Registers` says
what a usable target is good for: the loops of ICP go on from a pose that puts 20 points on it.
-/

namespace Localizer

open PyFloat Except Ros Transition NpArray

variable {F : Type} [PyFloat F] {lib : ThirdParty F} {num : Numerics F}
  {cfg : Config F} {mapData : MapData F} {full scan : List (Vector3 F)} {n n' : Node F}
  {m m' : LocalMap F} {T : Mat4 F} {c g : IcpResult F} {tick : Tick F} {o : Outcome F} {x y : F}
  {w w' : World F} {e : Event F} {es : List (Event F)}

/-! ### Targets -/

/-- The `z_mask` of `_rebuild_local_map` and of `LocalizerNode.__init__` -/
def inHeightBand (p : Vector3 F) : Bool := le (lit (-0.3)) p.z && le p.z (lit 5)

/-- `subset` in `_rebuild_local_map` -/
def nearby (cfg : Config F) (full : List (Vector3 F)) (x y : F) : List (Vector3 F) :=
  full.filter fun p => lt (planarNorm (p.x - x) (p.y - y)) cfg.localMapRadius

/-- The target that `LocalizerNode.__init__` makes of the whole map. The log line at its end takes
the minimum of the target, which raises for an empty one. -/
def LocalMap.whole (lib : ThirdParty F) (cfg : Config F) (full : List (Vector3 F)) :
    Except PyError (LocalMap F) := do
  let tgtPts ← lib.voxelDownSample (full.filter inHeightBand) cfg.voxelMap
  let tgtXy := tgtPts.map fun p => (p.x, p.y)
  let normals ← estimateNormalsSafe lib tgtPts (cfg.voxelMap * lit 2.5)
  if tgtPts.isEmpty then throw .valueError
  return ⟨tgtPts, ⟨tgtPts⟩, tgtXy, ⟨tgtXy⟩, normals, none⟩

/-- What is documented of the voxel filter: it makes up no points, and keeps some. -/
structure VoxelLaws (lib : ThirdParty F) : Prop where
  nil : ∀ voxel out, lib.voxelDownSample [] voxel = .ok out → out = []
  ne_nil : ∀ pts voxel out, pts ≠ [] → lib.voxelDownSample pts voxel = .ok out → out ≠ []

/-- What is documented of the queries: a point of the tree is at distance zero from it, which is
less than `icp_max_dist`. -/
structure QueryLaws (lib : ThirdParty F) (num : Numerics F) (cfg : Config F) : Prop where
  query : ∀ pts, ∀ p ∈ pts, lt (lib.query ⟨pts⟩ p) cfg.icpMaxDist = true
  nearest : ∀ {d : ℕ} (pts : List (Fin d → F)), ∀ p ∈ pts,
    ∃ m, num.nearest ⟨pts⟩ p = some m ∧ lt m.1 cfg.icpMaxDist = true

/-- Points of the target all have correspondences in the tree. -/
def Covers {d : ℕ} (num : Numerics F) (cfg : Config F) (tree : KdTree (Fin d → F))
    (tgt : List (Fin d → F)) : Prop :=
  ∀ srcT, (∀ p ∈ srcT, p ∈ tgt) → (masked num tree cfg.icpMaxDist srcT).length = srcT.length

lemma QueryLaws.covers {d : ℕ} (hquery : QueryLaws lib num cfg) (tgt : List (Fin d → F)) :
    Covers num cfg ⟨tgt⟩ tgt := by
  intro srcT hsrc
  refine List.filterMap_length_eq_length.mpr fun p hp => ?_
  obtain ⟨m, hm, hnear⟩ := hquery.nearest tgt p (hsrc p hp)
  simp [correspondence, hm, hnear]

lemma Covers.length_masked {d : ℕ} {tree : KdTree (Fin d → F)} {tgt src : List (Fin d → F)}
    {T : Matrix (Fin (d + 1)) (Fin (d + 1)) F} (h : Covers num cfg tree tgt)
    (hsrc : ∀ p ∈ transformPts src T, p ∈ tgt) :
    (masked num tree cfg.icpMaxDist (transformPts src T)).length = src.length :=
  (h _ hsrc).trans (List.length_map _)

/-- Twenty points on the target keep the loop of `icp_point_to_plane` going. -/
lemma planeIteration_ne_none {tree : KdTree (Fin 3 → F)} {tgt normals src : List (Fin 3 → F)}
    (hcovers : Covers num cfg tree tgt) (hsrc : ∀ p ∈ transformPts src T, p ∈ tgt)
    (htwenty : 20 ≤ src.length) :
    planeIteration num tree tgt normals src cfg.icpMaxDist T ≠ .ok none := by
  intro h
  simp only [planeIteration, hcovers.length_masked hsrc, if_neg (not_lt.mpr htwenty)] at h
  obtain ⟨pairs, -, h⟩ := bind_eq_ok.mp h
  obtain ⟨x, -, h⟩ := bind_eq_ok.mp h
  cases h

/-- They keep the loops of `icp` and `icp_2d` going too. -/
lemma icpIteration_ne_none {d : ℕ} {tree : KdTree (Fin (d + 1) → F)}
    {tgt src : List (Fin (d + 1) → F)} {T : Matrix (Fin (d + 1 + 1)) (Fin (d + 1 + 1)) F}
    (hcovers : Covers num cfg tree tgt) (hsrc : ∀ p ∈ transformPts src T, p ∈ tgt)
    (htwenty : 20 ≤ src.length) :
    icpIteration num tree tgt src cfg.icpMaxDist T ≠ .ok none := by
  intro h
  simp only [icpIteration, hcovers.length_masked hsrc, if_neg (not_lt.mpr htwenty)] at h
  obtain ⟨pairs, -, h⟩ := bind_eq_ok.mp h
  cases h

namespace LocalMap

/-- Trees, projection and normals are made of the points of the target. -/
structure Consistent (lib : ThirdParty F) (cfg : Config F) (m : LocalMap F) : Prop where
  tree : m.tgtTree = ⟨m.tgtPts⟩
  pts2d : m.tgtPts2d = m.tgtPts.map fun p => (p.x, p.y)
  tree2d : m.tgtTree2d = ⟨m.tgtPts2d⟩
  normals : estimateNormalsSafe lib m.tgtPts (cfg.voxelMap * lit 2.5) = .ok m.tgtNormals

/-- The target has points, and all its parts are made of them. -/
structure Usable (lib : ThirdParty F) (cfg : Config F) (m : LocalMap F) : Prop
    extends Consistent lib cfg m where
  ne_nil : m.tgtPts ≠ []

/-- The target has points, and points that lie on it have correspondences in both trees.
`_eval_fitness` counts a scan that a pose puts on it, and from the pose `icp_point_to_plane` and
`icp_2d` go on if it has 20 points. The functions with several scales filter the target once more,
and leave out a scale with fewer than 20 points. -/
structure Registers (lib : ThirdParty F) (num : Numerics F) (cfg : Config F) (m : LocalMap F) :
    Prop where
  ne_nil : m.tgtPts ≠ []
  fitness : ∀ (T : Mat4 F) (scan : List (Vector3 F)), (∀ p ∈ scan, applyPoint T p ∈ m.tgtPts) →
    ∀ p ∈ scan, lt (lib.query m.tgtTree (applyPoint T p)) cfg.icpMaxDist = true
  covers : Covers num cfg ⟨m.tgtTree.points.map coords⟩ (m.tgtPts.map coords)
  covers2d : Covers num cfg ⟨m.tgtTree2d.points.map coords2d⟩ (m.tgtPts2d.map coords2d)
  goesOn : ∀ T src, (∀ p ∈ transformPts src T, p ∈ m.tgtPts.map coords) → 20 ≤ src.length →
    planeIteration num ⟨m.tgtTree.points.map coords⟩ (m.tgtPts.map coords)
      (m.tgtNormals.map coords) src cfg.icpMaxDist T ≠ .ok none
  goesOn2d : ∀ T2 src, (∀ p ∈ transformPts src T2, p ∈ m.tgtPts2d.map coords2d) →
    20 ≤ src.length → icpIteration num ⟨m.tgtTree2d.points.map coords2d⟩
      (m.tgtPts2d.map coords2d) src cfg.icpMaxDist T2 ≠ .ok none

lemma Usable.registers (h : Usable lib cfg m) (hquery : QueryLaws lib num cfg) :
    Registers lib num cfg m := by
  have hcovers : Covers num cfg ⟨m.tgtTree.points.map coords⟩ (m.tgtPts.map coords) := by
    rw [h.tree]
    exact hquery.covers _
  have hcovers2d : Covers num cfg ⟨m.tgtTree2d.points.map coords2d⟩
      (m.tgtPts2d.map coords2d) := by
    rw [h.tree2d]
    exact hquery.covers _
  refine ⟨h.ne_nil, fun T scan hscan p hp => ?_, hcovers, hcovers2d,
    fun T src => planeIteration_ne_none hcovers, fun T2 src => icpIteration_ne_none hcovers2d⟩
  exact h.tree ▸ hquery.query _ _ (hscan p hp)

lemma usable_whole (h : whole lib cfg full = .ok m) : m.Usable lib cfg := by
  obtain ⟨tgtPts, -, h⟩ := bind_eq_ok.mp h
  obtain ⟨normals, hnormals, h⟩ := bind_eq_ok.mp h
  cases tgtPts with
  | nil => cases h
  | cons p tgtPts =>
    cases h
    exact ⟨⟨rfl, rfl, rfl, hnormals⟩, List.cons_ne_nil _ _⟩

/-- There are too few points around the pose, or one of them is between the height limits. -/
def HasTarget (cfg : Config F) (full : List (Vector3 F)) (x y : F) : Prop :=
  200 ≤ (nearby cfg full x y).length → ∃ p ∈ nearby cfg full x y, inHeightBand p = true

/-- `_rebuild_local_map` keeps the target, or replaces all of its parts. -/
lemma rebuild_ok (h : m.rebuild lib cfg full x y = .ok m') :
    ((nearby cfg full x y).length < 200 ∧ m' = m) ∨
      200 ≤ (nearby cfg full x y).length ∧ m'.Consistent lib cfg ∧
        lib.voxelDownSample ((nearby cfg full x y).filter inHeightBand) cfg.voxelMap =
          .ok m'.tgtPts := by
  simp only [rebuild] at h
  split_ifs at h with hlen
  · exact Or.inl ⟨hlen, (Except.ok.inj h).symm⟩
  · obtain ⟨tgtPts, hpts, h⟩ := bind_eq_ok.mp h
    obtain ⟨normals, hnormals, h⟩ := bind_eq_ok.mp h
    cases h
    exact Or.inr ⟨not_lt.mp hlen, ⟨rfl, rfl, rfl, hnormals⟩, hpts⟩

/-- A usable target stays usable exactly where there is a target to be built. -/
lemma usable_rebuild_iff (hvoxel : VoxelLaws lib) (hm : m.Usable lib cfg)
    (h : m.rebuild lib cfg full x y = .ok m') : m'.Usable lib cfg ↔ HasTarget cfg full x y := by
  rcases rebuild_ok h with ⟨hfew, rfl⟩ | ⟨hmany, hconsistent, hpts⟩
  · exact iff_of_true hm fun hmany => absurd hfew (not_lt.mpr hmany)
  · constructor
    · intro husable _
      by_contra hnone
      push Not at hnone
      rw [List.filter_eq_nil_iff.mpr hnone] at hpts
      exact husable.ne_nil (hvoxel.nil _ _ hpts)
    · intro htarget
      obtain ⟨p, hp, hband⟩ := htarget hmany
      refine ⟨hconsistent, hvoxel.ne_nil _ _ _ ?_ hpts⟩
      exact List.ne_nil_of_mem (List.mem_filter.mpr ⟨hp, hband⟩)

end LocalMap

namespace Node

/-! ### Which steps rebuild -/

/-- The pose is further than `dis_updatemap` from the centre of the local map. -/
def leavesMap (cfg : Config F) (n : Node F) (x y : F) : Bool :=
  match n.localMap.localMapCentre with
  | none => true
  | some (cx, cy) => lt cfg.disUpdatemap (planarNorm (x - cx) (y - cy))

/-- The event makes the node rebuild its local map around `(x, y)`. -/
inductive RebuildsAt (lib : ThirdParty F) (cfg : Config F) (n : Node F) :
    Event F → F → F → Prop where
  | locked {tick : Tick F} {scan : List (Vector3 F)} {g : IcpResult F}
      (hscan : Scans lib cfg n tick scan) (hinit : n.initialized = false)
      (hg : tick.globalIcp = .ok g) (hgates : firstGates lib cfg g = .ok true) :
      RebuildsAt lib cfg n (.tick tick) (g.T 0 3) (g.T 1 3)
  | tracked {tick : Tick F} {scan : List (Vector3 F)} {c : IcpResult F}
      (hscan : Scans lib cfg n tick scan) (hinit : n.initialized = true)
      (hc : tick.trackIcp = .ok c) (hgates : n.trackGates lib cfg scan c = .ok true)
      (hleaves : n.leavesMap cfg (c.T 0 3) (c.T 1 3) = true) :
      RebuildsAt lib cfg n (.tick tick) (c.T 0 3) (c.T 1 3)
  | relocalized {tick : Tick F} {scan : List (Vector3 F)} {c g : IcpResult F}
      (hscan : Scans lib cfg n tick scan) (hinit : n.initialized = true)
      (hc : tick.trackIcp = .ok c) (hgates : n.trackGates lib cfg scan c = .ok false)
      (hlost : cfg.relocalizeAfterNLosses ≤ (n.lostCount + 1 : ℕ)) (hg : tick.globalIcp = .ok g)
      (hrecovery : n.recoveryGates lib cfg g = .ok true) :
      RebuildsAt lib cfg n (.tick tick) (g.T 0 3) (g.T 1 3)

lemma firstLocalize_localMap
    (h : n.firstLocalize lib cfg full scan tick.globalIcp = .ok (n', o)) :
    ∃ g, tick.globalIcp = .ok g ∧
      ((firstGates lib cfg g = .ok true ∧
          n.localMap.rebuild lib cfg full (g.T 0 3) (g.T 1 3) = .ok n'.localMap) ∨
        firstGates lib cfg g = .ok false ∧ n'.localMap = n.localMap) := by
  obtain ⟨floorZ, g, hg, ⟨hgates, -, _, hlock, rfl⟩ | ⟨hgates, -, rfl⟩⟩ := firstLocalize_ok h
  · obtain ⟨filter, localMap, -, hmap, rfl⟩ := lock_ok hlock
    exact ⟨g, hg, Or.inl ⟨hgates, hmap⟩⟩
  · exact ⟨g, hg, Or.inr ⟨hgates, rfl⟩⟩

lemma acceptTrack_localMap (h : n.acceptTrack lib cfg full c = .ok n') :
    (n.leavesMap cfg (c.T 0 3) (c.T 1 3) = true ∧
        n.localMap.rebuild lib cfg full (c.T 0 3) (c.T 1 3) = .ok n'.localMap) ∨
      n.leavesMap cfg (c.T 0 3) (c.T 1 3) = false ∧ n'.localMap = n.localMap := by
  obtain ⟨filter, localMap, -, hm, rfl⟩ := acceptTrack_ok h
  replace hm : (if n.leavesMap cfg (c.T 0 3) (c.T 1 3) then
    n.localMap.rebuild lib cfg full (c.T 0 3) (c.T 1 3) else .ok n.localMap) = .ok localMap := hm
  split_ifs at hm with hleaves
  · exact Or.inl ⟨hleaves, hm⟩
  · exact Or.inr ⟨by simpa using hleaves, (Except.ok.inj hm).symm⟩

lemma rejectTrack_localMap (h : n.rejectTrack lib cfg full tick.globalIcp = .ok (n', o)) :
    (∃ g, cfg.relocalizeAfterNLosses ≤ (n.lostCount + 1 : ℕ) ∧ tick.globalIcp = .ok g ∧
        n.recoveryGates lib cfg g = .ok true ∧
        n.localMap.rebuild lib cfg full (g.T 0 3) (g.T 1 3) = .ok n'.localMap) ∨
      (∀ g, cfg.relocalizeAfterNLosses ≤ (n.lostCount + 1 : ℕ) → tick.globalIcp = .ok g →
        n.recoveryGates lib cfg g = .ok false) ∧ n'.localMap = n.localMap := by
  rcases rejectTrack_ok h with ⟨g, _, hlost, hg, hrec, -, hlock, rfl⟩ | ⟨hrec, -, rfl⟩
  · obtain ⟨filter, localMap, -, hmap, rfl⟩ := lock_ok hlock
    exact Or.inl ⟨g, hlost, hg, hrec, hmap⟩
  · refine Or.inr ⟨fun g hlost hg => ?_, rfl⟩
    obtain ⟨g', hg', hrec'⟩ := hrec hlost
    cases hg.symm.trans hg'
    exact hrec'

lemma Scans.unique {scan' : List (Vector3 F)} (h : Scans lib cfg n tick scan)
    (h' : Scans lib cfg n tick scan') : scan = scan' := by
  obtain ⟨-, R, cloud, pubs, hR, hcloud, -, hprep⟩ := h
  obtain ⟨-, R', cloud', pubs', hR', hcloud', -, hprep'⟩ := h'
  cases hR.symm.trans hR'
  cases hcloud.symm.trans hcloud'
  cases hprep.symm.trans hprep'
  rfl

lemma SamePose.leavesMap_eq (h : SamePose n n') : n'.leavesMap cfg x y = n.leavesMap cfg x y := by
  simp only [leavesMap, h.localMap]

end Node

namespace World

/-- A step that does not rebuild keeps the target. -/
lemma localMap_of_not_rebuilds (h : w.step lib cfg mapData e = some w')
    (hnone : ∀ x y, ¬w.node.RebuildsAt lib cfg e x y) : w'.node.localMap = w.node.localMap := by
  cases e with
  | cloud pts stamp | odom pos stamp =>
    cases h
    rfl
  | tick tick =>
    cases tick_cases h with
    | idle _ hn | frozen _ hn => exact hn.localMap
    | @scan n scan ts o hscan hn ho =>
      rw [← hn.localMap]
      rcases Node.firstLocalizeOrTrack_ok ho with ⟨hinit, ho⟩ | ⟨hinit, ho⟩
      · rw [hn.initialized] at hinit
        obtain ⟨c, hc, ⟨hgates, -, hacc⟩ | ⟨hgates, hrej⟩⟩ := Node.track_ok ho
        · rw [hn.trackGates_eq] at hgates
          rcases Node.acceptTrack_localMap hacc with ⟨hleaves, -⟩ | ⟨-, hmap⟩
          · replace hleaves : n.leavesMap cfg (c.T 0 3) (c.T 1 3) = true := hleaves
            rw [hn.leavesMap_eq] at hleaves
            exact absurd (.tracked hscan hinit hc hgates hleaves) (hnone _ _)
          · exact hmap
        · rw [hn.trackGates_eq] at hgates
          rcases Node.rejectTrack_localMap hrej with ⟨g, hlost, hg, hrec, -⟩ | ⟨-, hmap⟩
          · replace hrec : n.recoveryGates lib cfg g = .ok true := hrec
            rw [hn.recoveryGates_eq] at hrec
            replace hlost : cfg.relocalizeAfterNLosses ≤ (n.lostCount + 1 : ℕ) := hlost
            rw [hn.lostCount] at hlost
            exact absurd (.relocalized hscan hinit hc hgates hlost hg hrec) (hnone _ _)
          · exact hmap
      · rw [hn.initialized] at hinit
        obtain ⟨g, hg, ⟨hgates, -⟩ | ⟨-, hmap⟩⟩ := Node.firstLocalize_localMap ho
        · exact absurd (.locked hscan hinit hg hgates) (hnone _ _)
        · exact hmap

lemma firstLocalizeOrTrack_of_scans {tick : Tick F} {scan : List (Vector3 F)}
    (h : w.step lib cfg mapData (.tick tick) = some w')
    (hscan : Node.Scans lib cfg w.node tick scan) :
    ∃ n o, Node.SamePose w.node n ∧
      n.firstLocalizeOrTrack lib cfg mapData.full scan tick = .ok (w'.node, o) := by
  cases tick_cases h with
  | idle hnone => exact absurd hscan (hnone _)
  | frozen hfrozen => cases hfrozen.symm.trans hscan.1
  | @scan n _ _ o hscan' hn ho =>
    obtain rfl := hscan.unique hscan'
    exact ⟨n, o, hn, ho⟩

/-- A tick of an initialized node that has a scan calls `_track`. -/
lemma track_of_scans {tick : Tick F} {scan : List (Vector3 F)}
    (h : w.step lib cfg mapData (.tick tick) = some w')
    (hscan : Node.Scans lib cfg w.node tick scan) (hinit : w.node.initialized = true) :
    ∃ n o, Node.SamePose w.node n ∧
      n.track lib cfg mapData.full scan tick.trackIcp tick.globalIcp = .ok (w'.node, o) := by
  obtain ⟨n, o, hn, ho⟩ := firstLocalizeOrTrack_of_scans h hscan
  rcases Node.firstLocalizeOrTrack_ok ho with ⟨-, ho⟩ | ⟨hinit', -⟩
  · exact ⟨n, o, hn, ho⟩
  · cases hinit'.symm.trans (hn.initialized.trans hinit)

/-- Otherwise it calls `_first_localize`. -/
lemma firstLocalize_of_scans {tick : Tick F} {scan : List (Vector3 F)}
    (h : w.step lib cfg mapData (.tick tick) = some w')
    (hscan : Node.Scans lib cfg w.node tick scan) (hinit : w.node.initialized = false) :
    ∃ n o, Node.SamePose w.node n ∧
      n.firstLocalize lib cfg mapData.full scan tick.globalIcp = .ok (w'.node, o) := by
  obtain ⟨n, o, hn, ho⟩ := firstLocalizeOrTrack_of_scans h hscan
  rcases Node.firstLocalizeOrTrack_ok ho with ⟨hinit', -⟩ | ⟨-, ho⟩
  · cases hinit'.symm.trans (hn.initialized.trans hinit)
  · exact ⟨n, o, hn, ho⟩

/-- A step that rebuilds calls `_rebuild_local_map`. -/
lemma localMap_of_rebuildsAt (h : w.step lib cfg mapData e = some w')
    (hat : w.node.RebuildsAt lib cfg e x y) :
    w.node.localMap.rebuild lib cfg mapData.full x y = .ok w'.node.localMap := by
  cases hat with
  | @locked tick scan g hscan hinit hg hgates =>
    obtain ⟨n, o, hn, ho⟩ := firstLocalize_of_scans h hscan hinit
    obtain ⟨g', hg', ⟨-, hmap⟩ | ⟨hgates', -⟩⟩ := Node.firstLocalize_localMap ho
    · cases hg.symm.trans hg'
      exact hn.localMap ▸ hmap
    · cases hg.symm.trans hg'
      cases hgates.symm.trans hgates'
  | @tracked tick scan c hscan hinit hc hgates hleaves =>
    obtain ⟨n, o, hn, ho⟩ := track_of_scans h hscan hinit
    obtain ⟨c', hc', ⟨-, -, hacc⟩ | ⟨hgates', -⟩⟩ := Node.track_ok ho
    · cases hc.symm.trans hc'
      rcases Node.acceptTrack_localMap hacc with ⟨-, hmap⟩ | ⟨hleaves', -⟩
      · exact hn.localMap ▸ hmap
      · replace hleaves' : n.leavesMap cfg (c.T 0 3) (c.T 1 3) = false := hleaves'
        rw [hn.leavesMap_eq] at hleaves'
        cases hleaves.symm.trans hleaves'
    · cases hc.symm.trans hc'
      rw [hn.trackGates_eq] at hgates'
      cases hgates.symm.trans hgates'
  | @relocalized tick scan c g hscan hinit hc hgates hlost hg hrecovery =>
    obtain ⟨n, o, hn, ho⟩ := track_of_scans h hscan hinit
    obtain ⟨c', hc', ⟨hgates', -⟩ | ⟨-, hrej⟩⟩ := Node.track_ok ho
    · cases hc.symm.trans hc'
      rw [hn.trackGates_eq] at hgates'
      cases hgates.symm.trans hgates'
    · rcases Node.rejectTrack_localMap hrej with ⟨g', -, hg', -, hmap⟩ | ⟨hnone, -⟩
      · cases hg.symm.trans hg'
        exact hn.localMap ▸ hmap
      · have hrec : n.recoveryGates lib cfg g = .ok false :=
          hnone g (by simpa only [hn.lostCount] using hlost) hg
        rw [hn.recoveryGates_eq] at hrec
        cases hrecovery.symm.trans hrec

/-! ### Runs -/

/-- The step keeps the target or leaves a usable one, so that a scan can be matched again. -/
structure KeepsTarget (lib : ThirdParty F) (num : Numerics F) (cfg : Config F) (w w' : World F) :
    Prop where
  kept : w'.node.localMap = w.node.localMap ∨ w'.node.localMap.Usable lib cfg
  registers : w'.node.localMap.Registers lib num cfg

lemma usable_step_iff (hvoxel : VoxelLaws lib) (hw : w.node.localMap.Usable lib cfg)
    (h : w.step lib cfg mapData e = some w') : w'.node.localMap.Usable lib cfg ↔
      ∀ x y, w.node.RebuildsAt lib cfg e x y → LocalMap.HasTarget cfg mapData.full x y := by
  constructor
  · intro husable x y hat
    exact (LocalMap.usable_rebuild_iff hvoxel hw (localMap_of_rebuildsAt h hat)).mp husable
  · intro htarget
    by_cases hat : ∃ x y, w.node.RebuildsAt lib cfg e x y
    · obtain ⟨x, y, hat⟩ := hat
      exact (LocalMap.usable_rebuild_iff hvoxel hw (localMap_of_rebuildsAt h hat)).mpr
        (htarget x y hat)
    · rw [localMap_of_not_rebuilds h fun x y hxy => hat ⟨x, y, hxy⟩]
      exact hw

/-- The steps of a run keep the target exactly when all of its states have a usable one. -/
lemma keepsTarget_iff_usable (hquery : QueryLaws lib num cfg)
    (hinit : mapData.localMap.Usable lib cfg) :
    (∀ pre e post s t, es = pre ++ e :: post → Run (step lib cfg mapData) (init lib cfg mapData)
        pre s → s.step lib cfg mapData e = some t → KeepsTarget lib num cfg s t) ↔
      ∀ pre post s, es = pre ++ post → Run (step lib cfg mapData) (init lib cfg mapData) pre s →
        s.node.localMap.Usable lib cfg := by
  constructor
  · intro hkeeps pre post s hes hs
    induction hs generalizing post with
    | nil => exact hinit
    | @snoc pre s t e hs he ih =>
      rw [List.append_assoc] at hes
      rcases (hkeeps pre e post s t hes hs he).kept with hmap | husable
      · exact hmap ▸ ih _ hes
      · exact husable
  · intro husable pre e post s t hes hs he
    have ht := husable (pre ++ [e]) post t (by simp [hes]) (hs.snoc he)
    exact ⟨Or.inr ht, ht.registers hquery⟩

/-- In a run of a node that has made its target of the whole map, every step keeps the target or
leaves a usable one, if and only if wherever a step rebuilds the local map there are fewer than
200 points of the map in the radius, or one of them is between the height limits. -/
theorem keepsTarget_iff (hvoxel : VoxelLaws lib) (hquery : QueryLaws lib num cfg)
    (hwhole : LocalMap.whole lib cfg mapData.full = .ok mapData.localMap)
    (hrun : Run (step lib cfg mapData) (init lib cfg mapData) es w) :
    (∀ pre e post s t, es = pre ++ e :: post → Run (step lib cfg mapData) (init lib cfg mapData)
        pre s → s.step lib cfg mapData e = some t → KeepsTarget lib num cfg s t) ↔
      Always (step lib cfg mapData) (init lib cfg mapData) (fun s e => ∀ x y,
        s.node.RebuildsAt lib cfg e x y → LocalMap.HasTarget cfg mapData.full x y) es := by
  have hinit := LocalMap.usable_whole hwhole
  rw [keepsTarget_iff_usable hquery hinit]
  exact forall_prefix_iff_always (I := fun _ => True)
    (G := fun w => w.node.localMap.Usable lib cfg) trivial (fun _ _ _ _ _ => trivial) hinit
    (fun _ _ _ _ hs he => usable_step_iff hvoxel hs he) hrun

section

/-- Exact arithmetic, with the square root of 49. -/
abbrev exactSeven : PyFloat ℚ where
  __ := PyFloat.exact
  npSqrt x := if x = 49 then 7 else 0

attribute [local instance] exactSeven

lemma voxelLaws_level : VoxelLaws ThirdParty.level where
  nil voxel out h := (Except.ok.inj h).symm
  ne_nil pts voxel out hne h := by
    rw [← Except.ok.inj h]
    simpa using hne

/-- Queries of points of the tree. No registration runs on it. -/
def levelNumerics : Numerics ℚ where
  inf := 0
  svd _ := (1, 0, 1)
  nearest tree p := if p ∈ tree.points then some (0, tree.points.idxOf p) else none
  lstsq _ _ := .ok 0
  fromYawDeg _ := eye
  fromRotvec _ := eye
  voxelDownSampleNormals pts _ := .ok pts.dedup

lemma queryLaws_level : QueryLaws ThirdParty.level levelNumerics {} where
  query pts p hp := by
    show lt (if p ∈ pts then 0 else 1) _ = true
    rw [if_pos hp]
    decide +kernel
  nearest pts p hp := by
    have hdist : lt (0 : ℚ) ({} : Config ℚ).icpMaxDist = true := by decide +kernel
    exact ⟨_, if_pos hp, hdist⟩

lemma whole_point : LocalMap.whole .level {} MapData.point.full = .ok MapData.point.localMap := by
  have hband : MapData.point.full.filter inHeightBand = MapData.point.full := by decide +kernel
  have hvoxel : ThirdParty.level.voxelDownSample MapData.point.full (lit 0.2) =
      .ok [⟨0, 0, 0⟩] := by
    show Except.ok MapData.point.full.dedup = _
    rw [show MapData.point.full.dedup = [⟨0, 0, 0⟩] by decide +kernel]
  simp only [LocalMap.whole, hband, hvoxel]
  rfl

/-- The first lock rebuilds the local map, where the map has a floor. -/
theorem keepsTarget_iff_floor : ∃ w, Run (step .level {} .point) (init .level {} .point)
      [.cloud (.replicate 200 ⟨0, 0, 0⟩) ⟨0, 0⟩, .tick (.level 0 1)] w ∧
    w.node.localMap.localMapCentre = some (0, 0) ∧
    ((∀ pre e post s t, [Event.cloud (.replicate 200 ⟨0, 0, 0⟩) ⟨0, 0⟩, .tick (.level 0 1)] =
        pre ++ e :: post → Run (step .level {} .point) (init .level {} .point) pre s →
        s.step .level {} .point e = some t →
        KeepsTarget .level levelNumerics {} s t) ↔
      Always (step .level {} .point) (init .level {} .point) (fun s e => ∀ x y,
        s.node.RebuildsAt .level {} e x y → LocalMap.HasTarget {} MapData.point.full x y)
        [.cloud (.replicate 200 ⟨0, 0, 0⟩) ⟨0, 0⟩, .tick (.level 0 1)]) := by
  obtain ⟨w, hw, hcentre⟩ := exists_run (step .level {} .point) (init .level {} .point)
    [.cloud (.replicate 200 ⟨0, 0, 0⟩) ⟨0, 0⟩, .tick (.level 0 1)]
    (fun w => w.node.localMap.localMapCentre = some (0, 0)) (by decide +kernel)
  exact ⟨w, hw, hcentre, keepsTarget_iff voxelLaws_level queryLaws_level whole_point hw⟩

/-- A wall seven metres from the origin, and something above the origin at the height `z`. -/
def hall (z : ℚ) : MapData ℚ where
  full := .replicate 200 ⟨0, 0, z⟩ ++ [⟨7, 0, 0⟩]
  display := [⟨7, 0, 0⟩]
  localMap := ⟨[⟨7, 0, 0⟩], ⟨[⟨7, 0, 0⟩]⟩, [(7, 0)], ⟨[(7, 0)]⟩, [⟨0, 0, 1⟩], none⟩

/-- A scan of the wall, and a tick that locks on the hint. -/
def scanWall : List (Event ℚ) :=
  [.cloud (.replicate 200 ⟨7, 0, 0⟩) ⟨0, 0⟩, .tick (.level 0 1)]

lemma filter_full_hall : (hall 6).full.filter inHeightBand = [⟨7, 0, 0⟩] := by
  decide +kernel

lemma whole_hall : LocalMap.whole .level {} (hall 6).full = .ok (hall 6).localMap := by
  simp only [LocalMap.whole, filter_full_hall]
  rfl

/-- The ceiling of a hall is above the height limit, its walls are out of the radius and its floor
was not seen. The first lock replaces the target by an empty one. -/
theorem lock_empties_target : ∃ w, Run (step .level {} (hall 6)) (init .level {} (hall 6))
      scanWall w ∧
    LocalMap.whole .level {} (hall 6).full = .ok (hall 6).localMap ∧
    ¬∀ pre e post s t, scanWall = pre ++ e :: post →
      Run (step .level {} (hall 6)) (init .level {} (hall 6)) pre s →
      s.step .level {} (hall 6) e = some t →
      KeepsTarget .level levelNumerics {} s t := by
  obtain ⟨w, hw, hnil⟩ := exists_run (step .level {} (hall 6)) (init .level {} (hall 6)) scanWall
    (fun w => w.node.localMap.tgtPts = []) (by decide +kernel)
  refine ⟨w, hw, whole_hall, fun hkeeps => ?_⟩
  rw [scanWall, ← List.singleton_append, run_snoc_iff] at hw
  obtain ⟨s, hs, he⟩ := hw
  exact (hkeeps _ _ [] s w rfl hs he).registers.ne_nil hnil

end

end World

end Localizer
