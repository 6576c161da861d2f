import HumanoidNavigation.FastLio.FovSegment
import HumanoidNavigation.IkdTree.Map

/-!
# The map of the node

What `timer_callback` does to the map: it moves the local map along with the lidar, builds the tree
from the first scan, searches it for the planes of the measurement and adds the scan to it. In every
run the cube that is moved takes the points that it leaves out of the tree and no point near to the
lidar (`segment_points`, `near_spared`), and a measurement is selected when five points of the map
are near to it (`selected_iff`).
-/

namespace FastLio

open IkdTree Transition Search

attribute [local instance] neZero_three atLeastTwo_two atLeastTwo_five

variable {P K : Type*} [PointType P K] [Field K] [LinearOrder K]

structure MappingParams (P K : Type*) [PointType P K] where
  fov : FovParams K
  kd : KdParams P K

/-- A point of `feats_down_world` with its `Nearest_Points`, and where `Rebuild_Ptr` points while
it is added. -/
structure Feature (P : Type*) where
  world : P
  nearestPoints : List P
  ptr : RebuildPtr × RebuildPtr

/-- The local map, once it is initialized, and the tree. -/
structure LaserMapping (P K : Type*) where
  localMapPoints : Option (BoxPointType K)
  ikdtree : Ikd P K

/-- `NUM_MATCH_POINTS`. -/
def numMatchPoints : ℕ := 5

/-! ### Adding a scan -/

section

variable [FloorRing K]

/-- The nearest point is out of the cube of the point on every axis. -/
def noNeedDownsample (size : K) (flgEkfInited : Bool) (f : Feature P) : Bool :=
  let mid := voxelCentre size (voxel size f.world)
  match f.nearestPoints with
  | [] => false
  | near :: _ => flgEkfInited && decide (∀ i, |coord near i - mid i| > size / 2)

/-- None of the nearest points is nearer to the centre of the cube of the point. -/
def needAdd (size : K) (f : Feature P) : Bool :=
  let mid := voxelCentre size (voxel size f.world)
  !(decide (f.nearestPoints.length ≥ numMatchPoints) &&
    (f.nearestPoints.take numMatchPoints).any fun q => distTo mid q < distTo mid f.world)

def pointToAdd (size : K) (flgEkfInited : Bool) (f : Feature P) : Bool :=
  if !f.nearestPoints.isEmpty && flgEkfInited then
    !noNeedDownsample size flgEkfInited f && needAdd size f
  else true

def mapIncremental (c : KdParams P K) (flgEkfInited : Bool) (feats : List (Feature P))
    (s : Ikd P K) : Option (Ikd P K) := do
  let toAdd := feats.filter (pointToAdd c.downsampleSize flgEkfInited)
  let noNeed := feats.filter (noNeedDownsample c.downsampleSize flgEkfInited)
  let (_, s) ← s.addPoints c true (toAdd.map fun f => (f.ptr, f.world))
  let (_, s) ← s.addPoints c false (noNeed.map fun f => (f.ptr, f.world))
  some s

end

/-! ### The node -/

inductive MappingEvent (P K : Type*) where
  | segment (posLid : Fin 3 → K) (ptr : BoxPointType K → RebuildPtr)
  | build (featsDownWorld : List P)
  | search (pointWorld : P)
  | mapIncremental (flgEkfInited : Bool) (feats : List (Feature P))
  | swap (path : List Side) (working : WorkingFlags) (new : KdTree P K) (recorded : List P)

namespace LaserMapping

def init : LaserMapping P K := ⟨none, .empty⟩

/-- `lasermap_fov_segment`. -/
def lasermapFovSegment (c : MappingParams P K) (posLid : Fin 3 → K)
    (ptr : BoxPointType K → RebuildPtr) (s : LaserMapping P K) : LaserMapping P K :=
  let segment := fovSegment c.fov posLid s.localMapPoints
  let moves := s.localMapPoints.any (needMove c.fov posLid)
  let collected : Ikd P K :=
    if moves then { s.ikdtree with pointsDeleted := [], multithreadPointsDeleted := [] }
    else s.ikdtree
  { localMapPoints := some segment.1
    ikdtree :=
      if segment.2.length > 0 then
        (collected.deletePointBoxes c.kd (segment.2.map fun box => (ptr box, box))).2
      else collected }

variable [FloorRing K] [Inhabited P]

/-- What `timer_callback` does to the map, and the end of a rebuild. The tree is built from more
than five points, and a scan is added when it has five or more. -/
def step (c : MappingParams P K) (s : LaserMapping P K) :
    MappingEvent P K → Option (LaserMapping P K)
  | .segment posLid ptr => some (s.lasermapFovSegment c posLid ptr)
  | .build featsDownWorld =>
    if s.ikdtree.rootNode.isNull && decide (featsDownWorld.length > 5) then
      some { s with ikdtree := s.ikdtree.build c.kd featsDownWorld }
    else none
  | .search pointWorld =>
    (s.ikdtree.step c.kd (.nearestSearch pointWorld numMatchPoints ⊤)).map
      fun ikdtree => { s with ikdtree }
  | .mapIncremental flgEkfInited feats =>
    if s.ikdtree.rootNode.isNull || decide (feats.length < 5) then none
    else (mapIncremental c.kd flgEkfInited feats s.ikdtree).map fun ikdtree => { s with ikdtree }
  | .swap path working new recorded =>
    (s.ikdtree.step c.kd (.swap path working new recorded)).map fun ikdtree => { s with ikdtree }

end LaserMapping

/-- The condition on the end of a rebuild. -/
def SwapOk (s : LaserMapping P K) : MappingEvent P K → Prop
  | .swap path working new recorded =>
    IkdTree.SwapOk s.ikdtree (.swap path working new recorded)
  | _ => True

/-! ### What a step does -/

variable {c : MappingParams P K} {s t : LaserMapping P K} {e : MappingEvent P K}
  {es : List (MappingEvent P K)} {posLid : Fin 3 → K} {ptr : BoxPointType K → RebuildPtr}

namespace LaserMapping

/-- The segment takes the points that are in one of its boxes out of the tree. -/
lemma points_lasermapFovSegment (h : s.ikdtree.rootNode.WellFormed) :
    (s.lasermapFovSegment c posLid ptr).ikdtree.rootNode.WellFormed ∧
      (s.lasermapFovSegment c posLid ptr).ikdtree.points = s.ikdtree.points.filter
        fun p => ∀ box ∈ (fovSegment c.fov posLid s.localMapPoints).2, box.contains p = false := by
  simp only [lasermapFovSegment]
  generalize (fovSegment c.fov posLid s.localMapPoints).2 = boxes
  generalize hcollected : (if s.localMapPoints.any (needMove c.fov posLid) = true then
    ({ s.ikdtree with pointsDeleted := [], multithreadPointsDeleted := [] } : Ikd P K)
    else s.ikdtree) = collected
  have hroot : collected.rootNode = s.ikdtree.rootNode := by
    subst hcollected
    split_ifs <;> rfl
  have hpoints : collected.points = s.ikdtree.points := congrArg KdTree.points hroot
  split_ifs with hlength
  · obtain ⟨hw, hkept, -⟩ := Ikd.deletePointBoxes_spec (hroot ▸ h) c.kd
      (boxes.map fun box => (ptr box, box))
    refine ⟨hw, ?_⟩
    rw [hkept, hpoints]
    simp only [List.forall_mem_map]
  · obtain rfl : boxes = [] := List.length_eq_zero_iff.mp (by omega)
    refine ⟨hroot ▸ h, ?_⟩
    rw [hpoints]
    simp

variable [FloorRing K] [IsStrictOrderedRing K]

lemma wellFormed_mapIncremental {ikdtree ikdtree' : Ikd P K} {flgEkfInited : Bool}
    {feats : List (Feature P)} (hsize : 0 < c.kd.downsampleSize)
    (h : ikdtree.rootNode.WellFormed)
    (hadd : mapIncremental c.kd flgEkfInited feats ikdtree = some ikdtree') :
    ikdtree'.rootNode.WellFormed := by
  simp only [mapIncremental, Option.bind_eq_bind, Option.bind_eq_some_iff] at hadd
  obtain ⟨⟨n, s₁⟩, h₁, ⟨m, s₂⟩, h₂, heq⟩ := hadd
  obtain rfl := Option.some.inj heq
  obtain ⟨hw, -, -⟩ := Ikd.addPoints_downsampled hsize h h₁
  exact (Ikd.addPoints_plain hw h₂).1

variable [Inhabited P]

/-- A step keeps the tree well-formed. -/
lemma wellFormed_step (hsize : 0 < c.kd.downsampleSize) (h : s.ikdtree.rootNode.WellFormed)
    (hok : SwapOk s e) (he : s.step c e = some t) : t.ikdtree.rootNode.WellFormed := by
  cases e with
  | segment posLid ptr =>
    obtain rfl := Option.some.inj he
    exact (points_lasermapFovSegment h).1
  | build featsDownWorld =>
    simp only [step, Option.ite_none_right_eq_some] at he
    obtain ⟨-, heq⟩ := he
    obtain rfl := Option.some.inj heq
    exact (KdTree.buildTree_spec c.kd.nthElement featsDownWorld).1
  | search pointWorld =>
    simp only [step, Option.map_eq_some_iff] at he
    obtain ⟨ikdtree, hikd, rfl⟩ := he
    exact (step_effect (e := .nearestSearch pointWorld numMatchPoints ⊤) hsize h trivial hikd).1
  | mapIncremental flgEkfInited feats =>
    simp only [step] at he
    split_ifs at he
    obtain ⟨ikdtree, hikd, rfl⟩ := Option.map_eq_some_iff.mp he
    exact wellFormed_mapIncremental hsize h hikd
  | swap path working new recorded =>
    simp only [step, Option.map_eq_some_iff] at he
    obtain ⟨ikdtree, hikd, rfl⟩ := he
    exact (step_effect (e := .swap path working new recorded) hsize h hok hikd).1

lemma wellFormed_of_run (hsize : 0 < c.kd.downsampleSize) (hrun : Run (step c) .init es s)
    (hok : Always (step c) .init SwapOk es) : s.ikdtree.rootNode.WellFormed := by
  induction hrun with
  | nil => trivial
  | snoc hrun he ih => exact wellFormed_step hsize (ih hok.of_append) (hok.last hrun) he

end LaserMapping

/-! ### The local map in a run -/

section

variable {P K : Type*}

/-- The positions of the lidar at the segments of a run. -/
def positions (es : List (MappingEvent P K)) : List (Fin 3 → K) :=
  es.filterMap fun
    | .segment posLid _ => some posLid
    | _ => none

@[simp] lemma positions_append (es fs : List (MappingEvent P K)) :
    positions (es ++ fs) = positions es ++ positions fs := by
  simp [positions]

@[simp] lemma positions_segment {posLid : Fin 3 → K} {ptr : BoxPointType K → RebuildPtr} :
    positions [(.segment posLid ptr : MappingEvent P K)] = [posLid] := rfl

variable [Field K] [LinearOrder K]

/-- The lidar does not jump between two segments. -/
def NoJump (c : FovParams K) (es : List (MappingEvent P K)) : Prop :=
  (positions es).IsChain fun pos pos' => ∀ i, |pos' i - pos i| ≤ c.reach

lemma NoJump.of_append {c : FovParams K} {es fs : List (MappingEvent P K)}
    (h : NoJump c (es ++ fs)) : NoJump c es := by
  unfold NoJump at h ⊢
  rw [positions_append] at h
  exact h.left_of_append

end

/-- The last position of the lidar is away from the faces of the local map. -/
def MapInside (c : FovParams K) (es : List (MappingEvent P K)) (s : LaserMapping P K) : Prop :=
  match (positions es).getLast?, s.localMapPoints with
  | none, none => True
  | some pos, some box => Inside c pos box
  | _, _ => False

lemma mapInside_segment [IsStrictOrderedRing K] (hc : c.fov.Wide)
    (hjump : NoJump c.fov (es ++ [.segment posLid ptr])) (h : MapInside c.fov es s) :
    Inside c.fov posLid (fovSegment c.fov posLid s.localMapPoints).1 := by
  unfold MapInside at h
  unfold NoJump at hjump
  rw [positions_append, positions_segment] at hjump
  cases hlast : (positions es).getLast? with
  | none =>
    cases hbox : s.localMapPoints with
    | none => exact inside_first hc posLid
    | some box => simp [hlast, hbox] at h
  | some pos =>
    cases hbox : s.localMapPoints with
    | none => simp [hlast, hbox] at h
    | some box =>
      simp only [hlast, hbox] at h
      apply h.segment hc
      exact (List.isChain_append.mp hjump).2.2 pos hlast posLid rfl

variable [FloorRing K] [Inhabited P]

/-- Only a segment moves the local map. -/
lemma localMapPoints_step (he : s.step c e = some t) :
    t.localMapPoints = match e with
      | .segment posLid _ => some (fovSegment c.fov posLid s.localMapPoints).1
      | _ => s.localMapPoints := by
  cases e with
  | segment posLid ptr =>
    obtain rfl := Option.some.inj he
    rfl
  | build featsDownWorld =>
    simp only [LaserMapping.step, Option.ite_none_right_eq_some] at he
    obtain ⟨-, heq⟩ := he
    obtain rfl := Option.some.inj heq
    rfl
  | search pointWorld =>
    simp only [LaserMapping.step, Option.map_eq_some_iff] at he
    obtain ⟨ikdtree, -, rfl⟩ := he
    rfl
  | mapIncremental flgEkfInited feats =>
    simp only [LaserMapping.step] at he
    split_ifs at he
    obtain ⟨ikdtree, -, rfl⟩ := Option.map_eq_some_iff.mp he
    rfl
  | swap path working new recorded =>
    simp only [LaserMapping.step, Option.map_eq_some_iff] at he
    obtain ⟨ikdtree, -, rfl⟩ := he
    rfl

variable [IsStrictOrderedRing K]

/-- A lidar that does not jump is away from the faces of the local map. -/
lemma mapInside_of_run (hc : c.fov.Wide) (hrun : Run (LaserMapping.step c) .init es s)
    (hjump : NoJump c.fov es) : MapInside c.fov es s := by
  induction hrun with
  | nil => trivial
  | @snoc es s t e hrun he ih =>
    have hinside := ih hjump.of_append
    have hlocal := localMapPoints_step he
    cases e with
    | segment posLid ptr =>
      unfold MapInside
      rw [hlocal, positions_append, positions_segment, List.getLast?_concat]
      exact mapInside_segment hc hjump hinside
    | _ =>
      unfold MapInside at hinside ⊢
      rw [hlocal]
      simpa [positions] using hinside

/-- The local map of a run is a cube. -/
lemma isCube_of_run (hrun : Run (LaserMapping.step c) .init es s) :
    ∀ box ∈ s.localMapPoints, IsCube c.fov box := by
  apply hrun.invariant_state (I := fun s => ∀ box ∈ s.localMapPoints, IsCube c.fov box)
  · simp [LaserMapping.init]
  · intro s e t h he
    rw [localMapPoints_step he]
    cases e with
    | segment posLid ptr => simpa using isCube_fovSegment h
    | _ => exact h

omit [FloorRing K] [Inhabited P] in
/-- A segment from a cube to a cube. -/
lemma points_segment (hc : c.fov.Wide) (hw : s.ikdtree.rootNode.WellFormed) {box : BoxPointType K}
    (hbox : s.localMapPoints = some box) (hcube : IsCube c.fov box) (posLid : Fin 3 → K)
    (ptr : BoxPointType K → RebuildPtr) :
    (s.lasermapFovSegment c posLid ptr).ikdtree.points = s.ikdtree.points.filter fun p =>
      ¬(box.contains p = true ∧ (fovSegment c.fov posLid (some box)).1.contains p = false) := by
  rw [(LaserMapping.points_lasermapFovSegment hw).2, hbox]
  apply Multiset.filter_congr
  intro p _
  rw [← removed_iff hcube hc.movDist_pos.le hc.movDist_le]
  simp

/-- In every run a segment takes those points out of the tree that are in the old cube and not in
the new one. -/
theorem segment_points (hc : c.fov.Wide) (hsize : 0 < c.kd.downsampleSize)
    (hrun : Run (LaserMapping.step c) .init es s)
    (hok : Always (LaserMapping.step c) .init SwapOk es) {box : BoxPointType K}
    (hbox : s.localMapPoints = some box) (posLid : Fin 3 → K) (ptr : BoxPointType K → RebuildPtr) :
    (s.lasermapFovSegment c posLid ptr).ikdtree.points = s.ikdtree.points.filter fun p =>
      ¬(box.contains p = true ∧ (fovSegment c.fov posLid (some box)).1.contains p = false) := by
  have hw := LaserMapping.wellFormed_of_run hsize hrun hok
  have hcube := isCube_of_run hrun box hbox
  exact points_segment hc hw hbox hcube posLid ptr

/-! A node with the parameters of the `mid360` configuration that has built its map. -/

def MappingParams.mid360 : MappingParams (Fin 3 → ℚ) ℚ := ⟨⟨1000, 100⟩, .node⟩

lemma wide_mid360 : MappingParams.mid360.fov.Wide := by
  constructor <;>
    norm_num [MappingParams.mid360, FovParams.edge, FovParams.movDist, movThreshold]

def scanPoints : List (Fin 3 → ℚ) := List.replicate 6 1

def mappedScan : LaserMapping (Fin 3 → ℚ) ℚ :=
  { LaserMapping.lasermapFovSegment .mid360 0 (fun _ _ => false) .init with
    ikdtree := Ikd.empty.build .node scanPoints }

def scanEvents : List (MappingEvent (Fin 3 → ℚ) ℚ) :=
  [.segment 0 fun _ _ => false, .build scanPoints]

lemma run_mappedScan : Run (LaserMapping.step .mid360) .init scanEvents mappedScan :=
  (Run.nil.snoc rfl).snoc rfl

def movedEvents : List (MappingEvent (Fin 3 → ℚ) ℚ) :=
  scanEvents ++ [.segment 1 fun _ _ => false]

lemma swapOk_movedEvents : Always (LaserMapping.step .mid360) .init SwapOk movedEvents := by
  intro pre e post s hes _
  have he : e ∈ movedEvents := by simp [hes]
  simp only [movedEvents, scanEvents, List.mem_append, List.mem_cons, List.not_mem_nil,
    or_false] at he
  rcases he with (rfl | rfl) | rfl <;> trivial

lemma swapOk_scanEvents : Always (LaserMapping.step .mid360) .init SwapOk scanEvents :=
  swapOk_movedEvents.of_append

/-- The local map around the origin. -/
def originCube : BoxPointType ℚ := ⟨fun _ => 0 - 1000 / 2, fun _ => 0 + 1000 / 2⟩

theorem segment_points_mappedScan :
    (mappedScan.lasermapFovSegment .mid360 (fun _ => 400) fun _ _ => false).ikdtree.points =
      mappedScan.ikdtree.points.filter fun p => ¬(originCube.contains p = true ∧
        (fovSegment MappingParams.mid360.fov (fun _ => 400) (some originCube)).1.contains p =
          false) :=
  segment_points wide_mid360 (by norm_num [MappingParams.mid360, KdParams.node]) run_mappedScan
    swapOk_scanEvents rfl _ _

/-- A segment keeps the points that are near to the lidar. -/
def Spares (c : MappingParams P K) (s : LaserMapping P K) : MappingEvent P K → Prop
  | .segment posLid ptr =>
    (s.lasermapFovSegment c posLid ptr).ikdtree.points.filter (Near c.fov posLid) =
      s.ikdtree.points.filter (Near c.fov posLid)
  | _ => True

/-- While the lidar does not jump, no segment of a run takes a point out of the tree that is near to
the lidar. -/
theorem near_spared (hc : c.fov.Wide) (hsize : 0 < c.kd.downsampleSize)
    (hok : Always (LaserMapping.step c) .init SwapOk es) (hjump : NoJump c.fov es) :
    Always (LaserMapping.step c) .init (Spares c) es := by
  intro pre e post s hes hrun
  subst hes
  cases e with
  | segment posLid ptr =>
    rw [← List.singleton_append, ← List.append_assoc] at hjump
    have hin := mapInside_segment hc hjump.of_append
      (mapInside_of_run hc hrun hjump.of_append.of_append)
    have hw := LaserMapping.wellFormed_of_run hsize hrun hok.of_append
    change Multiset.filter _ _ = Multiset.filter _ _
    cases hbox : s.localMapPoints with
    | none =>
      rw [(LaserMapping.points_lasermapFovSegment hw).2, hbox]
      simp [fovSegment]
    | some box =>
      rw [hbox] at hin
      rw [points_segment hc hw hbox (isCube_of_run hrun box hbox), Multiset.filter_filter]
      apply Multiset.filter_congr
      intro p _
      simp only [and_iff_left_iff_imp]
      intro hp hremoved
      rw [hin.contains hp] at hremoved
      simp at hremoved
  | _ => trivial

lemma noJump_movedEvents : NoJump MappingParams.mid360.fov movedEvents := by
  have hpositions : positions movedEvents = [0, 1] := rfl
  norm_num [NoJump, hpositions, MappingParams.mid360, FovParams.reach, FovParams.edge,
    FovParams.movDist, movThreshold]

theorem near_spared_movedEvents :
    Always (LaserMapping.step .mid360) .init (Spares .mid360) movedEvents :=
  near_spared wide_mid360 (by norm_num [MappingParams.mid360, KdParams.node]) swapOk_movedEvents
    noJump_movedEvents

/-! ### The measurement -/

/-- `point_selected_surf` after the search. -/
def pointSelectedSurf (pointsNear : List P) (pointSearchSqDis : List (WithTop K)) : Bool :=
  if pointsNear.length < numMatchPoints then false
  else if pointSearchSqDis.getD (numMatchPoints - 1) 0 > ((5 : K) : WithTop K) then false
  else true

/-- In every run a measurement is selected when five points of the map are near to it, if no two
different squared distances to it are closer than the comparison of the search can tell. -/
theorem selected_iff (hsize : 0 < c.kd.downsampleSize)
    (hrun : Run (LaserMapping.step c) .init es s)
    (hok : Always (LaserMapping.step c) .init SwapOk es) {pointWorld : P}
    (hsep : Separated (K := K) pointWorld s.ikdtree.points) :
    let searched := s.ikdtree.rootNode.nearestSearch pointWorld numMatchPoints ⊤
    pointSelectedSurf searched.2.1 searched.2.2 = true ↔
      numMatchPoints ≤ (s.ikdtree.points.filter fun p => (calcDist pointWorld p : K) ≤ 5).card := by
  intro searched
  have hw := LaserMapping.wellFormed_of_run hsize hrun hok
  have hfive : numMatchPoints = 5 := rfl
  obtain ⟨-, hdists, hsorted, hnearest⟩ :=
    nearestSearch_spec hw ⊤ (by omega : 0 < numMatchPoints) hsep
  have hall : within pointWorld (sqr (⊤ : WithTop K)) s.ikdtree.rootNode.points =
      s.ikdtree.points := Multiset.filter_eq_self.mpr fun p _ => le_top
  change searched.2.2 = searched.2.1.map _ at hdists
  change searched.2.2.Pairwise _ at hsorted
  change KNearest _ _ _ (searched.2.1 : Multiset P) at hnearest
  rw [hall] at hnearest
  have hcard := hnearest.card
  have hlength : searched.2.2.length = searched.2.1.length := by
    rw [hdists, List.length_map]
  have hle : (∀ p ∈ (searched.2.1 : Multiset P), (calcDist pointWorld p : K) ≤ 5) ↔
      ∀ x ∈ searched.2.2, x ≤ ((5 : K) : WithTop K) := by
    rw [hdists]
    simp only [List.forall_mem_map, WithTop.coe_le_coe, Multiset.mem_coe]
  rw [Multiset.coe_card] at hcard
  rw [hnearest.le_card_iff, pointSelectedSurf, hle, Multiset.coe_card]
  split_ifs with hshort hfar
  · simp only [false_iff, not_and]
    intro h
    omega
  · rw [forall_mem_le_iff hsorted (n := numMatchPoints - 1) (by omega)]
    simp only [false_iff, not_and, not_le]
    intro _
    exact hfar
  · rw [forall_mem_le_iff hsorted (n := numMatchPoints - 1) (by omega)]
    simp only [true_iff]
    exact ⟨not_lt.mp hshort, not_lt.mp hfar⟩

lemma points_mappedScan : mappedScan.ikdtree.points = Multiset.replicate 6 1 :=
  (KdTree.buildTree_spec (K := ℚ) KdParams.node.nthElement scanPoints).2.1

theorem selected_iff_mappedScan :
    let searched := mappedScan.ikdtree.rootNode.nearestSearch 0 numMatchPoints (⊤ : WithTop ℚ)
    pointSelectedSurf searched.2.1 searched.2.2 = true ↔ numMatchPoints ≤
      (mappedScan.ikdtree.points.filter fun p => (calcDist (0 : Fin 3 → ℚ) p : ℚ) ≤ 5).card :=
  selected_iff (by norm_num [MappingParams.mid360, KdParams.node]) run_mappedScan
    swapOk_scanEvents (by simp [Separated, points_mappedScan])

end FastLio
