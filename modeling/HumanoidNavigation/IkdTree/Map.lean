import HumanoidNavigation.IkdTree.Downsample
import HumanoidNavigation.IkdTree.Nearest
import HumanoidNavigation.IkdTree.Swap
import HumanoidNavigation.Transition.Tally
import Mathlib.Data.Multiset.OrderedMonoid
import Mathlib.Data.Rat.Floor
import Mathlib.Tactic.NormNum

/-!
# Runs of the map

FAST-LIO builds the map, adds points to it, deletes boxes from it and searches it, one call after
the other, while the rebuild thread may put a rebuilt subtree into the tree between two calls. A
run of the tree is a run of a multiset of points, `map_refines`, and the tree answers as the
multiset does, `map_answers`.
-/

namespace IkdTree

open Transition Search

variable {P K : Type*} [PointType P K] [Field K] [LinearOrder K]

/-- The calls of the main thread, with where `Rebuild_Ptr` points, and the end of a rebuild. -/
inductive MapEvent (P K : Type*) where
  | build (pointCloud : List P)
  | addPoints (downsampleOn : Bool) (points : List ((RebuildPtr × RebuildPtr) × P))
  | deletePointBoxes (boxes : List (RebuildPtr × BoxPointType K))
  | boxSearch (box : BoxPointType K)
  | nearestSearch (point : P) (kNearest : ℕ) (maxDist : WithTop K)
  | flatten
  | acquireRemovedPoints
  | swap (path : List Side) (working : WorkingFlags) (new : KdTree P K) (recorded : List P)

namespace Ikd

variable [FloorRing K] [Inhabited P]

/-- The tree after a call, if it returns. -/
def step (c : KdParams P K) (s : Ikd P K) : MapEvent P K → Option (Ikd P K)
  | .build pointCloud => some (s.build c pointCloud)
  | .addPoints downsampleOn points => (s.addPoints c downsampleOn points).map Prod.snd
  | .deletePointBoxes boxes => some (s.deletePointBoxes c boxes).2
  | .boxSearch box => some { s with rootNode := (s.rootNode.searchByRange box).1 }
  | .nearestSearch point kNearest maxDist =>
    some { s with rootNode := (s.rootNode.nearestSearch point kNearest maxDist).1 }
  | .flatten => some { s with rootNode := s.rootNode.flatten.1 }
  | .acquireRemovedPoints => some { s with pointsDeleted := [], multithreadPointsDeleted := [] }
  | .swap path working new recorded =>
    some { s with
      rootNode := (KdTree.swap new working false path s.rootNode).1
      multithreadPointsDeleted := s.multithreadPointsDeleted ++ recorded }

end Ikd

/-! ### The abstract map -/

/-- A rebuilt subtree has the points of the old one, whose father keeps its mark. -/
def SwapOk (s : Ikd P K) : MapEvent P K → Prop
  | .swap path working new _ => (s.rootNode.subtree path).isNull = false ∧
      KdTree.swapSafe working false path s.rootNode = true ∧
      KdTree.Replaces (s.rootNode.subtree path) new
  | _ => True

/-- Is the event the end of a rebuild? -/
def MapEvent.isSwap : MapEvent P K → Bool
  | .swap _ _ _ _ => true
  | _ => false

omit [Field K] in
lemma swapOk_of_not_swap {s : Ikd P K} {e : MapEvent P K} (h : e.isSwap = false) : SwapOk s e := by
  cases e with
  | swap => simp [MapEvent.isSwap] at h
  | _ => trivial

variable [FloorRing K]

lemma always_swapOk [Inhabited P] {c : KdParams P K} {es : List (MapEvent P K)}
    (h : ∀ e ∈ es, e.isSwap = false) : Always (Ikd.step c) .empty SwapOk es := by
  intro pre e post s hes _
  apply swapOk_of_not_swap
  apply h
  simp [hes]

/-- What a call does to the points of the map. -/
def MapEvent.Effect (size : K) (old : Multiset P) : MapEvent P K → Multiset P → Prop
  | .build pointCloud, new => new = pointCloud
  | .addPoints false points, new => new = old + (points.map Prod.snd : List P)
  | .addPoints true points, new => ∀ v, Downsampled size v (old.filter (voxel size · = v))
      (((points.map Prod.snd : List P) : Multiset P).filter (voxel size · = v))
      (new.filter (voxel size · = v))
  | .deletePointBoxes boxes, new =>
      new = old.filter fun p => ∀ b ∈ boxes, b.2.contains p = false
  | _, new => new = old

/-- The points that a run of the calls may lead to, from an empty map. -/
inductive MapRun (size : K) : List (MapEvent P K) → Multiset P → Prop where
  | nil : MapRun size [] 0
  | snoc {es : List (MapEvent P K)} {e : MapEvent P K} {old new : Multiset P}
      (h : MapRun size es old) (he : e.Effect size old new) : MapRun size (es ++ [e]) new

variable [Inhabited P] [IsStrictOrderedRing K] {c : KdParams P K} {s t : Ikd P K}
  {es : List (MapEvent P K)} {e : MapEvent P K}

/-- A call keeps the tree well-formed and does to its points what it does to the map. -/
lemma step_effect (hsize : 0 < c.downsampleSize) (h : s.rootNode.WellFormed) (hok : SwapOk s e)
    (he : s.step c e = some t) :
    t.rootNode.WellFormed ∧ e.Effect c.downsampleSize s.points t.points := by
  cases e with
  | build pointCloud =>
    obtain rfl := Option.some.inj he
    obtain ⟨hw, hpoints, -⟩ := KdTree.buildTree_spec (K := K) c.nthElement pointCloud
    exact ⟨hw, hpoints⟩
  | addPoints downsampleOn points =>
    obtain ⟨⟨n, t'⟩, ht, rfl⟩ := Option.map_eq_some_iff.mp he
    cases downsampleOn with
    | false =>
      obtain ⟨hw, -, hpoints⟩ := Ikd.addPoints_plain h ht
      exact ⟨hw, hpoints⟩
    | true =>
      obtain ⟨hw, -, hcubes⟩ := Ikd.addPoints_downsampled hsize h ht
      exact ⟨hw, hcubes⟩
  | deletePointBoxes boxes =>
    obtain rfl := Option.some.inj he
    obtain ⟨hw, hpoints, -⟩ := Ikd.deletePointBoxes_spec h c boxes
    exact ⟨hw, hpoints⟩
  | boxSearch box =>
    obtain rfl := Option.some.inj he
    obtain ⟨hsame, -⟩ := h.searchByRange box
    exact ⟨hsame.wellFormed, hsame.points⟩
  | nearestSearch point kNearest maxDist =>
    obtain rfl := Option.some.inj he
    have hsame := samePoints_nearestSearch h point kNearest maxDist
    exact ⟨hsame.wellFormed, hsame.points⟩
  | flatten =>
    obtain rfl := Option.some.inj he
    obtain ⟨hsame, -, -⟩ := h.flatten
    exact ⟨hsame.wellFormed, hsame.points⟩
  | acquireRemovedPoints =>
    obtain rfl := Option.some.inj he
    exact ⟨h, rfl⟩
  | swap path working new recorded =>
    obtain rfl := Option.some.inj he
    obtain ⟨hnull, hsafe, hnew⟩ := hok
    have hreplaces := h.swap hnull hsafe hnew
    exact ⟨hreplaces.wellFormed, hreplaces.points⟩

lemma wellFormed_of_run (hsize : 0 < c.downsampleSize) (hrun : Run (Ikd.step c) .empty es s)
    (hok : Always (Ikd.step c) .empty SwapOk es) : s.rootNode.WellFormed := by
  apply hrun.invariant (I := fun _ s => s.rootNode.WellFormed) trivial _ hok
  intro es s e t _ hoke h he
  exact (step_effect hsize h hoke he).1

/-- Points along the diagonal of the axes. -/
def diagonal : List (Fin 3 → ℚ) := (List.range 24).map fun n _ => n

/-- The box from the origin that more than half of them are in. -/
def originBox : BoxPointType ℚ := ⟨0, 13⟩

/-- A map is built from them, and the box is deleted, after which the tree is rebuilt. -/
def originEvents : List (MapEvent (Fin 3 → ℚ) ℚ) :=
  [.build diagonal, .deletePointBoxes [(fun _ => false, originBox)]]

/-- The map after these calls. -/
def originDeleted : Ikd (Fin 3 → ℚ) ℚ :=
  ((Ikd.empty.build .node diagonal).deletePointBoxes .node [(fun _ => false, originBox)]).2

lemma run_originDeleted : Run (Ikd.step .node) .empty originEvents originDeleted :=
  (Run.nil.snoc rfl).snoc rfl

lemma swapOk_originEvents : Always (Ikd.step .node) .empty SwapOk originEvents :=
  always_swapOk (by simp [originEvents, MapEvent.isSwap])

lemma points_originDeleted : originDeleted.points = (diagonal.drop 13 : List (Fin 3 → ℚ)) := by
  obtain ⟨hw, hbuilt, -⟩ := KdTree.buildTree_spec (K := ℚ) KdParams.node.nthElement diagonal
  have hpoints := (Ikd.deletePointBoxes_spec (s := Ikd.empty.build .node diagonal) hw .node
    [(fun _ => false, originBox)]).2.1
  have hbox : diagonal.filter (fun p => originBox.contains p = false) = diagonal.drop 13 := by
    decide +kernel
  rw [originDeleted, hpoints, Ikd.points, Ikd.build, hbuilt, Multiset.filter_coe, ← hbox]
  simp

/-- Every run of the tree is a run of the abstract map, to the points that are in the tree. -/
theorem map_refines (hsize : 0 < c.downsampleSize) (hrun : Run (Ikd.step c) .empty es s)
    (hok : Always (Ikd.step c) .empty SwapOk es) :
    s.rootNode.WellFormed ∧ MapRun c.downsampleSize es s.points := by
  induction hrun with
  | nil => exact ⟨trivial, .nil⟩
  | snoc hrun he ih =>
    obtain ⟨hw, hmap⟩ := ih hok.of_append
    obtain ⟨hwt, heffect⟩ := step_effect hsize hw (hok.last hrun) he
    exact ⟨hwt, hmap.snoc heffect⟩

theorem map_refines_originDeleted : originDeleted.rootNode.WellFormed ∧
    MapRun (1 / 2 : ℚ) originEvents originDeleted.points :=
  map_refines (by norm_num [KdParams.node]) run_originDeleted swapOk_originEvents

/-! ### Every call returns -/

/-- A cloud to build from has a point. -/
def MapEvent.HasPoints : MapEvent P K → Prop
  | .build pointCloud => pointCloud ≠ []
  | _ => True

/-- A call on a tree with a root returns, with a root. -/
lemma step_returns (hsize : 0 < c.downsampleSize) (h : s.rootNode.WellFormed)
    (hroot : s.rootNode.isNull = false) (hok : SwapOk s e) (he : e.HasPoints) :
    ∃ t, s.step c e = some t ∧ t.rootNode.isNull = false := by
  cases e with
  | build pointCloud =>
    refine ⟨_, rfl, KdTree.isNull_of_points ?_⟩
    obtain ⟨-, hpoints, -⟩ := KdTree.buildTree_spec (K := K) c.nthElement pointCloud
    change (KdTree.buildTree c.nthElement pointCloud : KdTree P K).points ≠ 0
    rw [hpoints]
    exact mt (Multiset.coe_eq_zero _).mp he
  | addPoints downsampleOn points =>
    obtain ⟨n, t, ht, hroott⟩ := Ikd.addPoints_returns hsize h hroot downsampleOn points
    exact ⟨t, by simp [Ikd.step, ht], hroott⟩
  | deletePointBoxes boxes =>
    exact ⟨_, rfl, (Ikd.isNull_deletePointBoxes h c boxes).trans hroot⟩
  | boxSearch box => exact ⟨_, rfl, (h.searchByRange box).1.isNull.trans hroot⟩
  | nearestSearch point kNearest maxDist =>
    exact ⟨_, rfl, (samePoints_nearestSearch h point kNearest maxDist).isNull.trans hroot⟩
  | flatten => exact ⟨_, rfl, h.flatten.1.isNull.trans hroot⟩
  | acquireRemovedPoints => exact ⟨_, rfl, hroot⟩
  | swap path working new recorded =>
    obtain ⟨hnull, hsafe, hnew⟩ := hok
    exact ⟨_, rfl, (h.swap hnull hsafe hnew).isNull.trans hroot⟩

/-- After the map has been built from a cloud that is not empty no call finds a null root, whatever
has been deleted in between. -/
theorem map_returns (hsize : 0 < c.downsampleSize) {p : P} {ps : List P}
    (hrun : Run (Ikd.step c) .empty (.build (p :: ps) :: es) s)
    (hok : Always (Ikd.step c) .empty SwapOk (.build (p :: ps) :: es))
    (hpoints : ∀ e ∈ es, e.HasPoints) (he : e.HasPoints) (hoke : SwapOk s e) :
    ∃ t, s.step c e = some t := by
  obtain ⟨s₁, h₁, hrun'⟩ := run_cons_iff.mp hrun
  have hempty : (Ikd.empty : Ikd P K).rootNode.WellFormed := trivial
  obtain ⟨hw₁, heffect⟩ := step_effect hsize hempty (swapOk_of_not_swap rfl) h₁
  have hroot₁ : s₁.rootNode.isNull = false := by
    refine KdTree.isNull_of_points ?_
    rw [show s₁.rootNode.points = _ from heffect]
    exact mt (Multiset.coe_eq_zero _).mp (List.cons_ne_nil p ps)
  have hinv : s.rootNode.WellFormed ∧ s.rootNode.isNull = false := by
    refine hrun'.invariant (I := fun _ s => s.rootNode.WellFormed ∧ s.rootNode.isNull = false)
      ⟨hw₁, hroot₁⟩ ?_ ((hok.of_cons h₁).and (always_of_forall_mem hpoints))
    rintro es s e t - ⟨hoke, he⟩ ⟨hw, hroot⟩ ht
    obtain ⟨t', ht', hroot'⟩ := step_returns hsize hw hroot hoke he
    obtain rfl := Option.some.inj (ht.symm.trans ht')
    exact ⟨(step_effect hsize hw hoke ht).1, hroot'⟩
  obtain ⟨t, ht, -⟩ := step_returns hsize hinv.1 hinv.2 hoke he
  exact ⟨t, ht⟩

theorem map_returns_originDeleted :
    ∃ t, originDeleted.step .node (.addPoints true [((fun _ => false, fun _ => false), 0)]) =
      some t :=
  map_returns (by norm_num [KdParams.node]) run_originDeleted swapOk_originEvents
    (by simp [MapEvent.HasPoints]) trivial trivial

/-! ### The answers -/

/-- In every run the tree answers as the points of the map do: `validnum` is their number, unless
the whole tree is being rebuilt and the mutex is held, `flatten` lists them, `Box_Search` finds
those in the box and `Delete_Point_Boxes` counts those that are in one of the boxes. -/
theorem map_answers (hsize : 0 < c.downsampleSize) (hrun : Run (Ikd.step c) .empty es s)
    (hok : Always (Ikd.step c) .empty SwapOk es) :
    (∀ (ptr : RebuildPtr) locked, s.validnum ptr locked =
        if ptr [] = true ∧ locked = true then -1 else (s.points.card : ℤ)) ∧
      (s.rootNode.flatten.2.1 : Multiset P) = s.points ∧
      (∀ box, ((s.rootNode.searchByRange box).2 : Multiset P) =
        s.points.filter (box.contains · = true)) ∧
      ∀ boxes : List (RebuildPtr × BoxPointType K), (s.deletePointBoxes c boxes).1 =
        (s.points.filter (fun p => ¬∀ b ∈ boxes, b.2.contains p = false)).card := by
  have hw := wellFormed_of_run hsize hrun hok
  refine ⟨fun ptr locked => ?_, ?_, fun box => ?_,
    fun boxes => (Ikd.deletePointBoxes_spec hw c boxes).2.2.1⟩
  · have hcount : s.rootNode.invalidPointNum + s.points.card = s.rootNode.treeSize :=
      hw.treeSize_eq
    simp only [Ikd.validnum, Bool.and_eq_true]
    split_ifs
    · rfl
    · omega
  · rw [hw.flatten.2.1]
    rfl
  · rw [(hw.searchByRange box).2, coe_filter]
    rfl

theorem map_answers_originDeleted : (∀ (ptr : RebuildPtr) locked,
      originDeleted.validnum ptr locked =
        if ptr [] = true ∧ locked = true then -1 else (originDeleted.points.card : ℤ)) ∧
    (originDeleted.rootNode.flatten.2.1 : Multiset (Fin 3 → ℚ)) = originDeleted.points ∧
    (∀ box, ((originDeleted.rootNode.searchByRange box).2 : Multiset (Fin 3 → ℚ)) =
      originDeleted.points.filter (box.contains · = true)) ∧
    ∀ boxes : List (RebuildPtr × BoxPointType ℚ), (originDeleted.deletePointBoxes .node boxes).1 =
      (originDeleted.points.filter (fun p => ¬∀ b ∈ boxes, b.2.contains p = false)).card :=
  map_answers (by norm_num [KdParams.node]) run_originDeleted swapOk_originEvents

/-- In every run `Nearest_Search` returns the nearest points of the map within the maximal distance,
with their squared distances in ascending order. -/
theorem map_nearestSearch (hsize : 0 < c.downsampleSize) (hrun : Run (Ikd.step c) .empty es s)
    (hok : Always (Ikd.step c) .empty SwapOk es) {point : P} {kNearest : ℕ} {maxDist : WithTop K}
    (hk : 0 < kNearest) (hsep : Separated (K := K) point s.points) :
    (s.rootNode.nearestSearch point kNearest maxDist).2.2 =
        (s.rootNode.nearestSearch point kNearest maxDist).2.1.map
          (fun p => ((calcDist point p : K) : WithTop K)) ∧
      (s.rootNode.nearestSearch point kNearest maxDist).2.2.Pairwise (· ≤ ·) ∧
      KNearest (fun p => (calcDist point p : K)) kNearest (within point (sqr maxDist) s.points)
        (s.rootNode.nearestSearch point kNearest maxDist).2.1 :=
  (nearestSearch_spec (wellFormed_of_run hsize hrun hok) maxDist hk hsep).2

lemma separated_originDeleted :
    Separated (K := ℚ) (0 : Fin 3 → ℚ) originDeleted.points := by
  rw [points_originDeleted]
  change ∀ p ∈ diagonal.drop 13, ∀ q ∈ diagonal.drop 13,
    |(calcDist (0 : Fin 3 → ℚ) p : ℚ) - calcDist (0 : Fin 3 → ℚ) q| < 1 / 10 ^ 10 →
      (calcDist (0 : Fin 3 → ℚ) p : ℚ) = calcDist (0 : Fin 3 → ℚ) q
  decide +kernel

theorem map_nearestSearch_originDeleted :
    let searched := originDeleted.rootNode.nearestSearch 0 5 (⊤ : WithTop ℚ)
    searched.2.2 = searched.2.1.map (fun p => ((calcDist (0 : Fin 3 → ℚ) p : ℚ) : WithTop ℚ)) ∧
      searched.2.2.Pairwise (· ≤ ·) ∧
      KNearest (fun p => (calcDist (0 : Fin 3 → ℚ) p : ℚ)) 5
        (within (0 : Fin 3 → ℚ) (sqr ⊤) originDeleted.points) searched.2.1 :=
  map_nearestSearch (by norm_num [KdParams.node]) run_originDeleted swapOk_originEvents
    (by decide : 0 < 5) separated_originDeleted

/-! ### The removed points -/

/-- What `acquire_removed_points` returns. -/
def reported (s : Ikd P K) : MapEvent P K → Multiset P
  | .acquireRemovedPoints =>
      (s.pointsDeleted : Multiset P) + (s.multithreadPointsDeleted : Multiset P)
  | _ => 0

/-- The points that a call deletes because they are in one of its boxes. -/
def boxDeleted (s : Ikd P K) : MapEvent P K → Multiset P
  | .deletePointBoxes boxes => s.points.filter fun p => ¬∀ b ∈ boxes, b.2.contains p = false
  | _ => 0

/-- A call reports points that were to report and leaves at most the rest of them to report, with
those that it deletes by its boxes. -/
lemma step_reported (hsize : 0 < c.downsampleSize) (h : s.rootNode.WellFormed)
    (hswap : e.isSwap = false) (he : s.step c e = some t) :
    reported s e + t.unreported ≤ s.unreported + boxDeleted s e := by
  cases e with
  | build pointCloud =>
    obtain rfl := Option.some.inj he
    obtain ⟨-, -, hremoved, -⟩ := KdTree.buildTree_spec (K := K) c.nthElement pointCloud
    simp only [reported, boxDeleted, Ikd.unreported, Ikd.build, hremoved, zero_add, add_zero]
    exact add_le_add_left (Multiset.le_add_left _ _) _
  | addPoints downsampleOn points =>
    obtain ⟨⟨n, t'⟩, ht, rfl⟩ := Option.map_eq_some_iff.mp he
    simp only [reported, boxDeleted, zero_add, add_zero]
    cases downsampleOn with
    | false => exact (Ikd.addPoints_plain h ht).2.1
    | true => exact (Ikd.addPoints_downsampled hsize h ht).2.1
  | deletePointBoxes boxes =>
    obtain rfl := Option.some.inj he
    simp only [reported, boxDeleted, zero_add]
    exact (Ikd.deletePointBoxes_spec h c boxes).2.2.2
  | boxSearch box =>
    obtain rfl := Option.some.inj he
    simp only [reported, boxDeleted, zero_add, add_zero]
    exact add_le_add (add_le_add (h.searchByRange box).1.removed le_rfl) le_rfl
  | nearestSearch point kNearest maxDist =>
    obtain rfl := Option.some.inj he
    have hsame := samePoints_nearestSearch h point kNearest maxDist
    simp only [reported, boxDeleted, zero_add, add_zero]
    exact add_le_add (add_le_add hsame.removed le_rfl) le_rfl
  | flatten =>
    obtain rfl := Option.some.inj he
    simp only [reported, boxDeleted, zero_add, add_zero]
    exact add_le_add (add_le_add h.flatten.1.removed le_rfl) le_rfl
  | acquireRemovedPoints =>
    obtain rfl := Option.some.inj he
    simp only [reported, boxDeleted, Ikd.unreported, Multiset.coe_nil, add_zero]
    exact (by abel : _ = _).le
  | swap path working new recorded => exact absurd hswap (by simp [MapEvent.isSwap])

/-- In a run without the rebuild thread `acquire_removed_points` reports only points that were in
one of the deleted boxes, and each of them once. -/
theorem reported_le (hsize : 0 < c.downsampleSize) (hrun : Run (Ikd.step c) .empty es s)
    (hswap : ∀ e ∈ es, e.isSwap = false) :
    tally (Ikd.step c) reported .empty es + s.unreported ≤
      tally (Ikd.step c) boxDeleted .empty es := by
  have hstep : ∀ (s : Ikd P K) e t, s.rootNode.WellFormed → e.isSwap = false →
      s.step c e = some t → t.rootNode.WellFormed ∧
        reported s e + t.unreported ≤ s.unreported + boxDeleted s e := fun s e t h hswap he =>
    ⟨(step_effect hsize h (swapOk_of_not_swap hswap) he).1, step_reported hsize h hswap he⟩
  exact (tally_add_le _ Ikd.unreported trivial rfl hstep hrun hswap).2

theorem reported_le_originDeleted :
    tally (Ikd.step .node) reported .empty (originEvents ++ [.acquireRemovedPoints]) +
        Ikd.unreported { originDeleted with pointsDeleted := [], multithreadPointsDeleted := [] } ≤
      tally (Ikd.step .node) boxDeleted .empty (originEvents ++ [.acquireRemovedPoints]) :=
  reported_le (by norm_num [KdParams.node]) (run_originDeleted.snoc rfl)
    (by simp [originEvents, MapEvent.isSwap])

end IkdTree
