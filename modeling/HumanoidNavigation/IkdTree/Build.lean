import HumanoidNavigation.IkdTree.Update
import Mathlib.Data.List.MinMax

/-!
# Building and rebuilding

`BuildTree` makes a balanced tree of the points of a vector and `flatten` gives them back.
`Rebuild` puts a subtree that `Criterion_Check` rejects through both, unless it has so many nodes
that the rebuild thread has to do it. The tree keeps its points, `WellFormed.checkRebuild`.
-/

namespace IkdTree

attribute [local instance] neZero_three

variable {P K : Type*}

/-- `std::nth_element`, which permutes a vector. Which permutation it chooses is left to the
standard library. -/
structure NthElement (P : Type*) where
  apply : (P → P → Bool) → ℕ → List P → List P
  perm : ∀ cmp n storage, (apply cmp n storage).Perm storage

namespace NthElement

@[simp] lemma length_apply (nth : NthElement P) (cmp : P → P → Bool) (n : ℕ) (storage : List P) :
    (nth.apply cmp n storage).length = storage.length :=
  (nth.perm cmp n storage).length_eq

end NthElement

/-- A sort puts every element in its place. -/
def NthElement.sort {P : Type*} : NthElement P where
  apply cmp _ storage := storage.mergeSort fun a b => !cmp b a
  perm _ _ storage := storage.mergeSort_perm _

namespace KdTree

/-! ### flatten -/

/-- `flatten`: the tree with its marks pushed down, the points that it appends to `Storage` and
those that it records as deleted. -/
def flatten : KdTree P K → KdTree P K × List P × List P
  | null => (null, [], [])
  | node root l r =>
    let left := (pushSon root.needPushDownToLeft root l).flatten
    let right := (pushSon root.needPushDownToRight root r).flatten
    (node (root.pushed l r) left.1 right.1,
      (if root.pointDeleted then [] else [root.point]) ++ left.2.1 ++ right.2.1,
      left.2.2 ++ right.2.2 ++
        if root.pointDeleted && !root.pointDownsampleDeleted then [root.point] else [])
termination_by t => t.nodes
decreasing_by all_goals simp only [nodes_pushSon, nodes]; omega

lemma flatten_null : (null : KdTree P K).flatten = (null, [], []) := by
  rw [flatten]

lemma flatten_node (d : KdTreeNode P K) (l r : KdTree P K) :
    (node d l r).flatten =
      (node (d.pushed l r) (pushSon d.needPushDownToLeft d l).flatten.1
          (pushSon d.needPushDownToRight d r).flatten.1,
        d.ownLive ++ (pushSon d.needPushDownToLeft d l).flatten.2.1 ++
          (pushSon d.needPushDownToRight d r).flatten.2.1,
        (pushSon d.needPushDownToLeft d l).flatten.2.2 ++
            (pushSon d.needPushDownToRight d r).flatten.2.2 ++
          if d.pointDeleted && !d.pointDownsampleDeleted then [d.point] else []) := by
  rw [flatten]
  rfl

lemma pushedDown_flatten (t : KdTree P K) : PushedDown t t.flatten.1 := by
  induction t using pushInduction with
  | null =>
    rw [flatten_null]
    exact .refl _
  | node d l r ihl ihr =>
    rw [flatten_node]
    exact .node ihl ihr

variable [PointType P K] {t : KdTree P K}

/-- `flatten` stores the points of the tree and records only those that a box deletion has
removed. -/
theorem WellFormed.flatten [LE K] (h : t.WellFormed) :
    SamePoints t t.flatten.1 ∧ t.flatten.2.1 = t.live ∧
      (t.flatten.2.2 : Multiset P) ≤ t.removed := by
  refine ⟨(pushedDown_flatten t).samePoints h, ?_⟩
  induction t using pushInduction with
  | null =>
    rw [flatten_null]
    exact ⟨rfl, le_rfl⟩
  | node d l r ihl ihr =>
    obtain ⟨hlive, hremoved⟩ := h.pushed_eq
    obtain ⟨hwl, hwr⟩ := h.pushed_sons
    obtain ⟨hstorel, hrecl⟩ := ihl hwl
    obtain ⟨hstorer, hrecr⟩ := ihr hwr
    have hown : ((if d.pointDeleted && !d.pointDownsampleDeleted then [d.point] else [] : List P) :
        Multiset P) = d.ownRemoved := by
      unfold KdTreeNode.ownRemoved
      split_ifs <;> rfl
    rw [flatten_node]
    refine ⟨by rw [hlive, hstorel, hstorer], ?_⟩
    refine le_trans ?_ hremoved
    rw [← Multiset.coe_add, ← Multiset.coe_add, hown, add_comm, ← add_assoc]
    exact add_le_add (add_le_add le_rfl hrecl) hrecr

end KdTree

/-! ### BuildTree -/

/-- What the tree is configured with, and the library function that it sorts with. -/
structure KdParams (P K : Type*) where
  nthElement : NthElement P
  deleteCriterionParam : K
  balanceCriterionParam : K
  downsampleSize : K

/-- The parameters that the node sets. -/
def KdParams.node : KdParams (Fin 3 → ℚ) ℚ where
  nthElement := .sort
  deleteCriterionParam := 1 / 2
  balanceCriterionParam := 3 / 5
  downsampleSize := 1 / 2

variable [PointType P K]

section

variable [Field K] [LinearOrder K]

/-- `InitTreeNode`, with the point and the axis that are set after it. -/
def KdTreeNode.init (point : P) (divisionAxis : Fin 3) : KdTreeNode P K where
  point := point
  divisionAxis := divisionAxis
  treeSize := 0
  invalidPointNum := 0
  downDelNum := 0
  pointDeleted := false
  treeDeleted := false
  pointDownsampleDeleted := false
  treeDownsampleDeleted := false
  needPushDownToLeft := false
  needPushDownToRight := false
  nodeRange := some ⟨0, 0⟩

/-- `point_cmp_x`, `point_cmp_y` and `point_cmp_z`. -/
def pointCmp (axis : Fin 3) (a b : P) : Bool := decide (coord a axis < coord b axis)

/-- The extent of the points `p :: ps` along an axis. -/
def dimRange (p : P) (ps : List P) (axis : Fin 3) : K :=
  ps.foldl (fun m q => max m (coord q axis)) (coord p axis) -
    ps.foldl (fun m q => min m (coord q axis)) (coord p axis)

/-- The axis of the largest extent, the first of them. -/
def longestAxis (p : P) (ps : List P) : Fin 3 :=
  let divAxis := if dimRange p ps 1 > dimRange p ps 0 then 1 else 0
  if dimRange p ps 2 > dimRange p ps divAxis then 2 else divAxis

namespace KdTree

/-- `BuildTree` on the points between `l` and `r`. -/
def buildTree (nth : NthElement P) : List P → KdTree P K
  | [] => null
  | p :: ps =>
    let mid := ps.length / 2
    let divAxis := longestAxis p ps
    let storage := nth.apply (pointCmp divAxis) mid (p :: ps)
    have hmid : mid < storage.length := by
      simp only [storage, mid, NthElement.length_apply, List.length_cons]
      omega
    update (.init (storage.get ⟨mid, hmid⟩) divAxis) (buildTree nth (storage.take mid))
      (buildTree nth (storage.drop (mid + 1)))
termination_by storage => storage.length
decreasing_by
  all_goals
    simp only [List.length_take, List.length_drop, NthElement.length_apply, List.length_cons]
    omega

lemma buildTree_nil (nth : NthElement P) : buildTree nth ([] : List P) = (null : KdTree P K) := by
  rw [buildTree]

/-- A vector that is not empty is split at the point of its root. -/
lemma buildTree_cons (nth : NthElement P) (p : P) (ps : List P) :
    ∃ (axis : Fin 3) (left right : List P) (q : P), (left ++ q :: right).Perm (p :: ps) ∧
      left.length = ps.length / 2 ∧ right.length = ps.length - ps.length / 2 ∧
      (buildTree nth (p :: ps) : KdTree P K) =
        update (.init q axis) (buildTree nth left) (buildTree nth right) := by
  set axis := longestAxis p ps with haxis
  set storage := nth.apply (pointCmp axis) (ps.length / 2) (p :: ps) with hstorage
  have hlength : storage.length = ps.length + 1 := by
    rw [hstorage, NthElement.length_apply, List.length_cons]
  have hmid : ps.length / 2 < storage.length := by omega
  refine ⟨axis, storage.take (ps.length / 2), storage.drop (ps.length / 2 + 1),
    storage.get ⟨ps.length / 2, hmid⟩, ?_, ?_, ?_, ?_⟩
  · rw [List.get_eq_getElem, ← List.drop_eq_getElem_cons hmid, List.take_append_drop]
    exact nth.perm _ _ _
  · rw [List.length_take, hlength]
    omega
  · rw [List.length_drop, hlength]
    omega
  · rw [buildTree]

/-- The induction that `BuildTree` follows. -/
theorem buildInduction {motive : List P → Prop} (nil : motive [])
    (cons : ∀ p ps, (∀ storage : List P, storage.length ≤ ps.length → motive storage) →
      motive (p :: ps)) (storage : List P) : motive storage := by
  induction hn : storage.length using Nat.strong_induction_on generalizing storage with
  | _ n ih =>
    cases storage with
    | nil => exact nil
    | cons p ps =>
      subst hn
      exact cons p ps fun storage h => ih _ (Nat.lt_succ_of_le h) storage rfl

/-- `BuildTree` puts each point of the vector into a node of its own, none of them deleted. -/
theorem buildTree_spec (nth : NthElement P) (storage : List P) :
    (buildTree nth storage : KdTree P K).WellFormed ∧
      (buildTree nth storage : KdTree P K).points = storage ∧
      (buildTree nth storage : KdTree P K).removed = 0 ∧
      (buildTree nth storage : KdTree P K).treeSize = storage.length := by
  induction storage using buildInduction with
  | nil =>
    rw [buildTree_nil]
    exact ⟨trivial, rfl, rfl, rfl⟩
  | cons p ps ih =>
    obtain ⟨axis, left, right, q, hperm, hleft, hright, heq⟩ :=
      buildTree_cons (K := K) nth p ps
    obtain ⟨hwl, hpointsl, hreml, hsizel⟩ := ih left (by omega)
    obtain ⟨hwr, hpointsr, hremr, hsizer⟩ := ih right (by omega)
    rw [heq]
    refine ⟨wellFormed_update hwl hwr (by simp [KdTreeNode.init]) (by simp [KdTreeNode.init])
      (by simp [KdTreeNode.init]), ?_, ?_, ?_⟩
    · rw [points_update hwl hwr, hpointsl, hpointsr, ← Multiset.coe_eq_coe.mpr hperm,
        ← Multiset.coe_add, ← Multiset.cons_coe, ← Multiset.singleton_add]
      change ({q} : Multiset P) + left + right = left + ({q} + right)
      abel
    · have hrem := removed_update (d := KdTreeNode.init q axis) hwl hwr
      rw [hreml, hremr] at hrem
      exact Multiset.le_zero.mp hrem
    · change (buildTree nth left).treeSize + (buildTree nth right).treeSize + 1 = _
      rw [hsizel, hsizer, List.length_cons]
      omega

/-! ### Criterion_Check and Rebuild -/

/-- `Criterion_Check`. A tree of more than ten nodes has a son. -/
def criterionCheck (c : KdParams P K) : KdTree P K → Bool
  | null => false
  | node root l r =>
    if root.treeSize ≤ 10 then false
    else
      let son := if l.isNull then r else l
      let deleteEvaluation : K := root.invalidPointNum / root.treeSize
      let balanceEvaluation : K := son.treeSize / (root.treeSize - 1 : ℕ)
      decide (deleteEvaluation > c.deleteCriterionParam) ||
        (decide (balanceEvaluation > c.balanceCriterionParam) ||
          decide (balanceEvaluation < 1 - c.balanceCriterionParam))

/-- `Rebuild` with what it appends to `Points_deleted`. A tree from `Multi_Thread_Rebuild_Point_Num`
nodes on is left to the rebuild thread. -/
def rebuild (nth : NthElement P) (t : KdTree P K) : KdTree P K × List P :=
  if t.treeSize ≥ 1500 then (t, [])
  else (buildTree nth t.flatten.2.1, t.flatten.2.2)

/-- The end of the functions that change the tree. -/
def checkRebuild (c : KdParams P K) (allowRebuild : Bool) (t : KdTree P K) : KdTree P K × List P :=
  if allowRebuild && t.criterionCheck c then t.rebuild c.nthElement else (t, [])

/-- A rebuild keeps the points and records those that it drops. -/
theorem WellFormed.checkRebuild {t : KdTree P K} (h : t.WellFormed) (c : KdParams P K)
    (allowRebuild : Bool) :
    Yields (t.checkRebuild c allowRebuild).1 (t.checkRebuild c allowRebuild).2 t.points
      t.removed := by
  unfold KdTree.checkRebuild rebuild
  split_ifs with hcheck hsize
  · exact h.yields
  · obtain ⟨-, hstore, hrec⟩ := h.flatten
    obtain ⟨hw, hpoints, hrem, -⟩ := buildTree_spec (K := K) c.nthElement t.live
    rw [hstore]
    exact ⟨hw, hpoints, by rw [hrem, zero_add]; exact hrec⟩
  · exact h.yields

variable {d : KdTreeNode P K} {l r : KdTree P K} {recordedl recordedr : List P}
  {pointsl pointsr removedl removedr : Multiset P}

/-- The end of an operation that changes the sons of a node: the node is updated and perhaps
rebuilt. -/
lemma Yields.checkRebuild (hl : Yields l recordedl pointsl removedl)
    (hr : Yields r recordedr pointsr removedr)
    (hpds : d.pointDownsampleDeleted = true → d.pointDeleted = true)
    (hneedl : d.needPushDownToLeft = true → l.Fresh)
    (hneedr : d.needPushDownToRight = true → r.Fresh) (c : KdParams P K) (allowRebuild : Bool) :
    Yields ((update d l r).checkRebuild c allowRebuild).1
      (recordedl ++ recordedr ++ ((update d l r).checkRebuild c allowRebuild).2)
      (d.ownLive + pointsl + pointsr) (d.ownRemoved + removedl + removedr) := by
  obtain ⟨hw, hpoints, hremoved⟩ := (wellFormed_update hl.wellFormed hr.wellFormed hpds hneedl
    hneedr).checkRebuild c allowRebuild
  refine ⟨hw, ?_, ?_⟩
  · rw [hpoints, points_update hl.wellFormed hr.wellFormed, hl.points, hr.points]
  · rw [← Multiset.coe_add, ← Multiset.coe_add, add_left_comm]
    calc _ ≤ (recordedl + recordedr : Multiset P) + (d.ownRemoved + l.removed + r.removed) :=
          add_le_add le_rfl (hremoved.trans (removed_update hl.wellFormed hr.wellFormed))
      _ = d.ownRemoved + (l.removed + recordedl) + (r.removed + recordedr) := by abel
      _ ≤ _ := add_le_add (add_le_add le_rfl hl.removed) hr.removed

end KdTree

end

end IkdTree
