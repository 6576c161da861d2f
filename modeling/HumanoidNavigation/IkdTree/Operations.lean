import HumanoidNavigation.IkdTree.Build

/-!
# The operations on a subtree

`Add_by_point`, `Delete_by_range` and `Search_by_range` on the points of a tree: the first adds a
point, the second deletes those in a box and counts them, the third finds them. This holds whatever
is rebuilt on the way and whichever subtree the rebuild thread is at.
-/

namespace IkdTree

inductive Side where
  | left
  | right

/-- Is the son that the path leads to the one that `Rebuild_Ptr` points at? -/
def RebuildPtr : Type := List Side → Bool

/-- The same question below a son. -/
def RebuildPtr.below (ptr : RebuildPtr) (side : Side) : RebuildPtr := fun path => ptr (side :: path)

variable {P K : Type*}

/-- What `Delete_by_range` writes into a node whose range the box covers. -/
def KdTreeNode.deleteTree (isDownsample : Bool) (root : KdTreeNode P K) : KdTreeNode P K :=
  { root with
    treeDeleted := true
    pointDeleted := true
    needPushDownToLeft := true
    needPushDownToRight := true
    invalidPointNum := root.treeSize
    treeDownsampleDeleted := if isDownsample then true else root.treeDownsampleDeleted
    pointDownsampleDeleted := if isDownsample then true else root.pointDownsampleDeleted
    downDelNum := if isDownsample then root.treeSize else root.downDelNum }

/-- A covered node gets the marks that `Push_Down` gives to the son of a deleted node. -/
lemma KdTreeNode.deleteTree_eq_receive (isDownsample : Bool) (d : KdTreeNode P K) :
    d.deleteTree isDownsample = d.receive true isDownsample := by
  cases isDownsample <;> simp [KdTreeNode.deleteTree, KdTreeNode.receive]

variable [PointType P K] [LinearOrder K]

variable {box range : BoxPointType K} {isDownsample : Bool} {p : P}

namespace BoxPointType

/-- The point is in the box, whose upper bounds do not belong to it. -/
def contains (box : BoxPointType K) (p : P) : Bool :=
  decide (∀ i, box.vertexMin i ≤ coord p i ∧ box.vertexMax i > coord p i)

/-- The box and the range have no point in common. -/
def isOutside (box : BoxPointType K) : Option (BoxPointType K) → Bool
  | none => true
  | some range =>
    decide (∃ i, box.vertexMax i ≤ range.vertexMin i ∨ box.vertexMin i > range.vertexMax i)

/-- The box covers the range. -/
def covers (box : BoxPointType K) : Option (BoxPointType K) → Bool
  | none => true
  | some range =>
    decide (∀ i, box.vertexMin i ≤ range.vertexMin i ∧ box.vertexMax i > range.vertexMax i)


lemma contains_of_isOutside (h : box.isOutside (some range) = true) (hp : range.Covers p) :
    box.contains p = false := by
  obtain ⟨i, hi⟩ := of_decide_eq_true h
  refine decide_eq_false fun hbox => ?_
  rcases hi with hi | hi
  · exact absurd (hi.trans (hp.1 i)) (not_le.mpr (hbox i).2)
  · exact absurd ((hbox i).1.trans (hp.2 i)) (not_le.mpr hi)

lemma contains_of_covers (h : box.covers (some range) = true) (hp : range.Covers p) :
    box.contains p = true := by
  have hbox := of_decide_eq_true h
  exact decide_eq_true fun i => ⟨(hbox i).1.trans (hp.1 i), (hp.2 i).trans_lt (hbox i).2⟩

/-- A box that contains all points covers their range. -/
lemma covers_of_contains {ps : List P} (hbounds : range.Bounds ps) (hps : ps ≠ [])
    (hall : ∀ p ∈ ps, box.contains p = true) : box.covers (some range) = true := by
  refine decide_eq_true fun i => ?_
  obtain ⟨p, hp, hmin⟩ := hbounds.vertexMin hps i
  obtain ⟨q, hq, hmax⟩ := hbounds.vertexMax hps i
  have hboxp := of_decide_eq_true (hall p hp) i
  have hboxq := of_decide_eq_true (hall q hq) i
  rw [← hmin, ← hmax]
  exact ⟨hboxp.1, hboxq.2⟩

/-! A box with one bound drawn in. -/

variable {i : Fin 3} {x : K}

lemma contains_updateMin (hx : box.vertexMin i ≤ x) :
    ({ box with vertexMin := Function.update box.vertexMin i x } : BoxPointType K).contains p =
        true ↔ box.contains p = true ∧ x ≤ coord p i := by
  simp only [contains, decide_eq_true_eq]
  constructor
  · intro h
    have hi := (h i).1
    rw [Function.update_self] at hi
    refine ⟨fun j => ⟨?_, (h j).2⟩, hi⟩
    by_cases hj : j = i
    · subst hj
      exact hx.trans hi
    · simpa [hj] using (h j).1
  · rintro ⟨h, hi⟩ j
    refine ⟨?_, (h j).2⟩
    by_cases hj : j = i
    · subst hj
      simpa using hi
    · simpa [hj] using (h j).1

lemma contains_updateMax (hx : x ≤ box.vertexMax i) :
    ({ box with vertexMax := Function.update box.vertexMax i x } : BoxPointType K).contains p =
        true ↔ box.contains p = true ∧ coord p i < x := by
  simp only [contains, decide_eq_true_eq]
  constructor
  · intro h
    have hi := (h i).2
    rw [Function.update_self] at hi
    refine ⟨fun j => ⟨(h j).1, ?_⟩, hi⟩
    by_cases hj : j = i
    · subst hj
      exact hi.trans_le hx
    · simpa [hj] using (h j).2
  · rintro ⟨h, hi⟩ j
    refine ⟨(h j).1, ?_⟩
    by_cases hj : j = i
    · subst hj
      simpa using hi
    · simpa [hj] using (h j).2

end BoxPointType

/-! ### What a deletion does to the removed points -/

/-- The points of a deletion that are to be reported: none, when it is one of the downsampling. -/
def toReport (isDownsample : Bool) (deleted : Multiset P) : Multiset P :=
  if isDownsample then 0 else deleted

lemma toReport_add (deleted deleted' : Multiset P) :
    toReport isDownsample (deleted + deleted') =
      toReport isDownsample deleted + toReport isDownsample deleted' := by
  cases isDownsample <;> simp [toReport]

/-! ### The node's own point -/

namespace KdTreeNode

variable {d : KdTreeNode P K}

/-- Does `Delete_by_range` delete the point of the node? -/
def isHit (box : BoxPointType K) (root : KdTreeNode P K) : Bool :=
  !root.pointDeleted && box.contains root.point

/-- The node after its own point has been looked at. -/
def deleteHit (box : BoxPointType K) (isDownsample : Bool) (root : KdTreeNode P K) :
    KdTreeNode P K :=
  if root.isHit box then
    { root with
      pointDeleted := true
      pointDownsampleDeleted := if isDownsample then true else root.pointDownsampleDeleted }
  else root

lemma deleteHit_deleted (h : d.pointDownsampleDeleted = true → d.pointDeleted = true)
    (hpds : (d.deleteHit box isDownsample).pointDownsampleDeleted = true) :
    (d.deleteHit box isDownsample).pointDeleted = true := by
  cases hhit : d.isHit box with
  | true => simp [deleteHit, hhit]
  | false =>
    simp only [deleteHit, hhit, Bool.false_eq_true, if_false] at hpds ⊢
    exact h hpds

lemma deleteHit_need (d : KdTreeNode P K) (box : BoxPointType K) (isDownsample : Bool) :
    (d.deleteHit box isDownsample).needPushDownToLeft = d.needPushDownToLeft ∧
      (d.deleteHit box isDownsample).needPushDownToRight = d.needPushDownToRight := by
  unfold deleteHit
  split_ifs <;> exact ⟨rfl, rfl⟩

/-- The node's own point is deleted if it is in the box. -/
lemma deleteHit_spec (h : d.pointDownsampleDeleted = true → d.pointDeleted = true)
    (box : BoxPointType K) (isDownsample : Bool) :
    (if d.isHit box then 1 else 0) =
        ((d.ownLive : Multiset P).filter (box.contains · = true)).card ∧
      ((d.deleteHit box isDownsample).ownLive : Multiset P) =
        (d.ownLive : Multiset P).filter (box.contains · = false) ∧
      (d.deleteHit box isDownsample).ownRemoved = d.ownRemoved +
        toReport isDownsample ((d.ownLive : Multiset P).filter (box.contains · = true)) := by
  cases hpd : d.pointDeleted with
  | true =>
    have hhit : d.isHit box = false := by simp [isHit, hpd]
    have hlive : d.ownLive = [] := by simp [ownLive, hpd]
    simp only [deleteHit, hhit, hlive, Bool.false_eq_true, if_false]
    exact ⟨rfl, rfl, by simp [toReport]⟩
  | false =>
    have hlive : d.ownLive = [d.point] := by simp [ownLive, hpd]
    have hpds : d.pointDownsampleDeleted = false := by
      cases hpds : d.pointDownsampleDeleted with
      | false => rfl
      | true => exact absurd (h hpds) (by simp [hpd])
    cases hbox : box.contains d.point with
    | true =>
      have hhit : d.isHit box = true := by simp [isHit, hpd, hbox]
      simp only [deleteHit, hhit, hlive, if_true, Multiset.coe_singleton, Multiset.filter_singleton,
        hbox]
      refine ⟨rfl, by simp [ownLive], ?_⟩
      cases isDownsample <;> simp [toReport, ownRemoved, hpd, hpds]
    | false =>
      have hhit : d.isHit box = false := by simp [isHit, hpd, hbox]
      simp only [deleteHit, hhit, hlive, Bool.false_eq_true, if_false, Multiset.coe_singleton,
        Multiset.filter_singleton, hbox]
      exact ⟨rfl, rfl, by simp [toReport]⟩

end KdTreeNode

namespace KdTree

variable {t : KdTree P K}

/-! ### Finding the points in a box -/

/-- `Search_by_range`: the tree with its marks pushed down and the points that it stores. -/
def searchByRange (box : BoxPointType K) : KdTree P K → KdTree P K × List P
  | null => (null, [])
  | node root l r =>
    let left := pushSon root.needPushDownToLeft root l
    let right := pushSon root.needPushDownToRight root r
    let pushed := node (root.pushed l r) left right
    if box.isOutside root.nodeRange then (pushed, [])
    else if box.covers root.nodeRange then (pushed.flatten.1, pushed.flatten.2.1)
    else
      let foundl := left.searchByRange box
      let foundr := right.searchByRange box
      (node (root.pushed l r) foundl.1 foundr.1,
        (if box.contains root.point && !root.pointDeleted then [root.point] else []) ++
          foundl.2 ++ foundr.2)
termination_by t => t.nodes
decreasing_by all_goals simp only [nodes_pushSon, nodes]; omega

lemma pushedDown_searchByRange (box : BoxPointType K) (t : KdTree P K) :
    PushedDown t (t.searchByRange box).1 := by
  induction t using pushInduction with
  | null =>
    rw [searchByRange]
    exact .refl _
  | node d l r ihl ihr =>
    have hpushed := PushedDown.node (.refl (pushSon d.needPushDownToLeft d l))
      (.refl (pushSon d.needPushDownToRight d r))
    rw [searchByRange]
    by_cases hout : box.isOutside d.nodeRange = true
    · rw [if_pos hout]
      exact hpushed
    rw [if_neg hout]
    by_cases hin : box.covers d.nodeRange = true
    · rw [if_pos hin]
      exact hpushed.trans (pushedDown_flatten _)
    rw [if_neg hin]
    exact .node ihl ihr

/-- `Search_by_range` stores the points in the box, in the order of `flatten`. -/
theorem WellFormed.searchByRange (h : t.WellFormed) (box : BoxPointType K) :
    SamePoints t (t.searchByRange box).1 ∧
      (t.searchByRange box).2 = t.live.filter box.contains := by
  refine ⟨(pushedDown_searchByRange box t).samePoints h, ?_⟩
  induction t using pushInduction with
  | null => rw [KdTree.searchByRange, live, List.filter_nil]
  | node d l r ihl ihr =>
    obtain ⟨b, hb, hbounds⟩ := h.1.nodeRange
    obtain ⟨hwl, hwr⟩ := h.pushed_sons
    obtain ⟨hlive, -⟩ := h.pushed_eq
    have hpushed := h.samePoints_node hwl.samePoints hwr.samePoints
    rw [KdTree.searchByRange]
    by_cases hout : box.isOutside d.nodeRange = true
    · rw [if_pos hout]
      refine (List.filter_eq_nil_iff.mpr fun p hp => ?_).symm
      simp [BoxPointType.contains_of_isOutside (hb ▸ hout) (hbounds.covers p hp)]
    rw [if_neg hout]
    by_cases hin : box.covers d.nodeRange = true
    · obtain ⟨-, hstore, -⟩ := hpushed.wellFormed.flatten
      rw [if_pos hin, hstore, hpushed.live]
      refine (List.filter_eq_self.mpr fun p hp => ?_).symm
      exact BoxPointType.contains_of_covers (hb ▸ hin) (hbounds.covers p hp)
    rw [if_neg hin]
    have hstorel := ihl hwl
    have hstorer := ihr hwr
    have hown : (if box.contains d.point && !d.pointDeleted then [d.point] else []) =
        d.ownLive.filter box.contains := by
      cases hpd : d.pointDeleted <;> simp [KdTreeNode.ownLive, hpd, List.filter_singleton]
    rw [hlive, List.filter_append, List.filter_append, ← hown, ← hstorel, ← hstorer]

variable [Field K]

/-! ### Adding and deleting -/

/-- `Add_by_point`. Below `Rebuild_Ptr` no subtree is rebuilt. -/
def addByPoint (c : KdParams P K) (ptr : RebuildPtr) (allowRebuild : Bool) (point : P)
    (fatherAxis : Fin 3) : KdTree P K → KdTree P K × List P
  | null => (update (.init point (fatherAxis + 1)) null null, [])
  | node root l r =>
    let left := pushSon root.needPushDownToLeft root l
    let right := pushSon root.needPushDownToRight root r
    if coord point root.divisionAxis < coord root.point root.divisionAxis then
      let added := left.addByPoint c (ptr.below .left) (allowRebuild && !ptr [.left]) point
        root.divisionAxis
      let rebuilt := (update (root.pushed l r) added.1 right).checkRebuild c allowRebuild
      (rebuilt.1, added.2 ++ rebuilt.2)
    else
      let added := right.addByPoint c (ptr.below .right) (allowRebuild && !ptr [.right]) point
        root.divisionAxis
      let rebuilt := (update (root.pushed l r) left added.1).checkRebuild c allowRebuild
      (rebuilt.1, added.2 ++ rebuilt.2)
termination_by t => t.nodes
decreasing_by all_goals simp only [nodes_pushSon, nodes]; omega

/-- `Delete_by_range`: the number of points that it has deleted, the tree and what is appended to
`Points_deleted`. -/
def deleteByRange (c : KdParams P K) (ptr : RebuildPtr) (box : BoxPointType K) (allowRebuild : Bool)
    (isDownsample : Bool) : KdTree P K → ℕ × KdTree P K × List P
  | null => (0, null, [])
  | node root l r =>
    if root.treeDeleted then (0, node root l r, [])
    else
      let left := pushSon root.needPushDownToLeft root l
      let right := pushSon root.needPushDownToRight root r
      let root := root.pushed l r
      if box.isOutside root.nodeRange then (0, node root left right, [])
      else if box.covers root.nodeRange then
        (root.treeSize - root.invalidPointNum, node (root.deleteTree isDownsample) left right, [])
      else
        let hit := root.isHit box
        let root := root.deleteHit box isDownsample
        let deletedl := left.deleteByRange c (ptr.below .left) box
          (allowRebuild && !ptr [.left]) isDownsample
        let deletedr := right.deleteByRange c (ptr.below .right) box
          (allowRebuild && !ptr [.right]) isDownsample
        let rebuilt := (update root deletedl.2.1 deletedr.2.1).checkRebuild c allowRebuild
        ((if hit then 1 else 0) + deletedl.1 + deletedr.1, rebuilt.1,
          deletedl.2.2 ++ deletedr.2.2 ++ rebuilt.2)
termination_by t => t.nodes
decreasing_by all_goals simp only [nodes_pushSon, nodes]; omega

variable {c : KdParams P K} {ptr : RebuildPtr}
  {allowRebuild : Bool} {point : P} {fatherAxis : Fin 3}

/-! ### Adding a point -/

lemma addByPoint_null : (null : KdTree P K).addByPoint c ptr allowRebuild point fatherAxis =
    (update (.init point (fatherAxis + 1)) null null, []) := by
  rw [addByPoint]

/-- A leaf as `Add_by_point` makes it. -/
lemma fresh_leaf (axis : Fin 3) :
    (update (.init point axis) null null : KdTree P K).Fresh :=
  ⟨rfl, rfl, rfl, rfl, rfl, rfl, rfl, rfl⟩

/-- A son that has been null has at most the new leaf. -/
lemma fresh_addByPoint (ht : t.isNull = true) :
    (t.addByPoint c ptr allowRebuild point fatherAxis).1.Fresh := by
  rw [isNull_iff.mp ht, addByPoint_null]
  exact fresh_leaf _

/-- `Add_by_point` adds the point and changes no other. -/
theorem WellFormed.addByPoint (h : t.WellFormed) (c : KdParams P K) (ptr : RebuildPtr)
    (allowRebuild : Bool) (point : P) (fatherAxis : Fin 3) :
    Yields (t.addByPoint c ptr allowRebuild point fatherAxis).1
      (t.addByPoint c ptr allowRebuild point fatherAxis).2 (point ::ₘ t.points) t.removed := by
  induction t using pushInduction generalizing ptr allowRebuild fatherAxis with
  | null =>
    rw [addByPoint_null]
    refine ⟨wellFormed_update trivial trivial (by simp [KdTreeNode.init])
      (by simp [KdTreeNode.init]) (by simp [KdTreeNode.init]), ?_, ?_⟩
    · rw [points_update wellFormed_null wellFormed_null]
      rfl
    · rw [Multiset.coe_nil, add_zero]
      exact removed_update (d := .init point (fatherAxis + 1)) wellFormed_null wellFormed_null
  | node d l r ihl ihr =>
    obtain ⟨hwl, hwr⟩ := h.pushed_sons
    rw [h.pushed_points, KdTree.addByPoint]
    simp only
    split_ifs with hcmp
    · have hl := ihl hwl (ptr.below .left) (allowRebuild && !ptr [.left]) d.divisionAxis
      have hend := hl.checkRebuild (d := d.pushed l r) hwr.yields h.1.downsampleDeleted
        (fun hneed => fresh_addByPoint (isNull_pushed_left hneed))
        (fun hneed => fresh_of_isNull (isNull_pushed_right hneed)) c allowRebuild
      rw [List.append_nil, Multiset.add_cons, Multiset.cons_add] at hend
      exact hend.mono h.pushed_eq.2
    · have hr := ihr hwr (ptr.below .right) (allowRebuild && !ptr [.right]) d.divisionAxis
      have hend := hwl.yields.checkRebuild (d := d.pushed l r) hr h.1.downsampleDeleted
        (fun hneed => fresh_of_isNull (isNull_pushed_left hneed))
        (fun hneed => fresh_addByPoint (isNull_pushed_right hneed)) c allowRebuild
      rw [List.nil_append, Multiset.add_cons] at hend
      exact hend.mono h.pushed_eq.2

/-! ### Deleting the points in a box -/

lemma deleteByRange_null :
    (null : KdTree P K).deleteByRange c ptr box allowRebuild isDownsample = (0, null, []) := by
  rw [deleteByRange]

/-- A son that has been null stays null. -/
lemma fresh_deleteByRange (ht : t.isNull = true) :
    (t.deleteByRange c ptr box allowRebuild isDownsample).2.1.Fresh := by
  rw [isNull_iff.mp ht, deleteByRange_null]
  trivial

/-- `Delete_by_range` deletes the points in the box, and no other, and counts them. -/
theorem WellFormed.deleteByRange (h : t.WellFormed) (c : KdParams P K) (ptr : RebuildPtr)
    (box : BoxPointType K) (allowRebuild isDownsample : Bool) :
    (t.deleteByRange c ptr box allowRebuild isDownsample).1 =
        (t.points.filter (box.contains · = true)).card ∧
      Yields (t.deleteByRange c ptr box allowRebuild isDownsample).2.1
        (t.deleteByRange c ptr box allowRebuild isDownsample).2.2
        (t.points.filter (box.contains · = false))
        (t.removed + toReport isDownsample (t.points.filter (box.contains · = true))) := by
  induction t using pushInduction generalizing ptr allowRebuild with
  | null =>
    rw [deleteByRange_null]
    exact ⟨rfl, h.yields.mono (Multiset.le_add_right _ _)⟩
  | node d l r ihl ihr =>
    obtain ⟨b, hb, hbounds⟩ := h.1.nodeRange
    obtain ⟨hwl, hwr⟩ := h.pushed_sons
    have hpushed := h.samePoints_node hwl.samePoints hwr.samePoints
    rw [KdTree.deleteByRange]
    by_cases htd : d.treeDeleted = true
    · have hnil : (node d l r).points = 0 := by
        rw [points, h.live_of_treeDeleted htd, Multiset.coe_nil]
      rw [if_pos htd, hnil, Multiset.filter_zero, Multiset.filter_zero, ← hnil]
      exact ⟨by rw [hnil]; rfl, h.yields.mono (Multiset.le_add_right _ _)⟩
    rw [if_neg htd]
    by_cases hout : box.isOutside (d.pushed l r).nodeRange = true
    · have hnone : ∀ p ∈ (node d l r).points, box.contains p = false := fun p hp =>
        BoxPointType.contains_of_isOutside (hb ▸ hout) (hbounds.covers p hp)
      rw [if_pos hout, Multiset.filter_eq_nil.mpr fun p hp => by simp [hnone p hp],
        Multiset.filter_eq_self.mpr hnone]
      exact ⟨rfl, hpushed.yields.mono (Multiset.le_add_right _ _)⟩
    rw [if_neg hout]
    by_cases hin : box.covers (d.pushed l r).nodeRange = true
    · have hall : ∀ p ∈ (node d l r).points, box.contains p = true := fun p hp =>
        BoxPointType.contains_of_covers (hb ▸ hin) (hbounds.covers p hp)
      obtain ⟨hw, hlive, hremoved⟩ := hpushed.wellFormed.receive_true isDownsample
      rw [if_pos hin, KdTreeNode.deleteTree_eq_receive, Multiset.filter_eq_self.mpr hall,
        Multiset.filter_eq_nil.mpr fun p hp => by simp [hall p hp]]
      refine ⟨?_, hw, congrArg Multiset.ofList hlive, ?_⟩
      · have hcount : d.invalidPointNum + (node d l r).points.card = d.treeSize := h.treeSize_eq
        change d.treeSize - d.invalidPointNum = _
        omega
      · rw [Multiset.coe_nil, Multiset.add_zero]
        refine hremoved.trans ?_
        rw [hpushed.wellFormed.kept_eq, hpushed.points]
        cases isDownsample with
        | false =>
          simp only [toReport, Bool.false_eq_true, if_false]
          rw [add_comm]
          exact add_le_add hpushed.removed le_rfl
        | true => exact Multiset.zero_le _
    rw [if_neg hin]
    obtain ⟨hhit, hlive, hown⟩ := KdTreeNode.deleteHit_spec (d := d.pushed l r)
      h.1.downsampleDeleted box isDownsample
    simp only [KdTreeNode.pushed_ownLive, KdTreeNode.pushed_ownRemoved] at hhit hlive hown
    obtain ⟨hcountl, hyieldl⟩ := ihl hwl (ptr.below .left) (allowRebuild && !ptr [.left])
    obtain ⟨hcountr, hyieldr⟩ := ihr hwr (ptr.below .right) (allowRebuild && !ptr [.right])
    obtain ⟨hneedl, hneedr⟩ := KdTreeNode.deleteHit_need (d.pushed l r) box isDownsample
    have hend := hyieldl.checkRebuild hyieldr
      (d := (d.pushed l r).deleteHit box isDownsample)
      (KdTreeNode.deleteHit_deleted h.1.downsampleDeleted)
      (fun hneed => fresh_deleteByRange (isNull_pushed_left (hneedl.symm.trans hneed)))
      (fun hneed => fresh_deleteByRange (isNull_pushed_right (hneedr.symm.trans hneed)))
      c allowRebuild
    rw [h.pushed_points]
    simp only [Multiset.filter_add, Multiset.card_add, toReport_add]
    constructor
    · rw [hhit, hcountl, hcountr]
    · rw [hlive, hown] at hend
      refine hend.mono ?_
      refine le_trans (le_of_eq ?_) (add_le_add h.pushed_eq.2 le_rfl)
      abel

/-! ### The root stays -/

/-- Where points are deleted one by one some are left, so no rebuild makes the tree a null one. -/
lemma WellFormed.isNull_deleteByRange (h : t.WellFormed) :
    (t.deleteByRange c ptr box allowRebuild isDownsample).2.1.isNull = t.isNull := by
  cases t with
  | null => rw [KdTree.deleteByRange]
  | node d l r =>
    obtain ⟨-, -, hpoints, -⟩ := h.deleteByRange c ptr box allowRebuild isDownsample
    by_contra hnull
    have hzero :
        (KdTree.deleteByRange c ptr box allowRebuild isDownsample (node d l r)).2.1.points = 0 := by
      by_contra hne
      exact hnull (isNull_of_points hne)
    have hall : ∀ p ∈ (node d l r).live, box.contains p = true := by
      rw [hzero, eq_comm, Multiset.filter_eq_nil] at hpoints
      intro p hp
      simpa using hpoints p hp
    obtain ⟨b, hb, hbounds⟩ := h.1.nodeRange
    rw [KdTree.deleteByRange] at hnull
    by_cases htd : d.treeDeleted = true
    · simp [htd] at hnull
    have hcovers : box.covers (d.pushed l r).nodeRange = true := by
      change box.covers d.nodeRange = true
      rw [hb]
      exact BoxPointType.covers_of_contains hbounds
        (fun hnil => htd (h.1.treeDeleted.mpr hnil)) hall
    simp only [htd, hcovers, Bool.false_eq_true, if_false, if_true] at hnull
    split_ifs at hnull <;> simp at hnull

end KdTree

end IkdTree
