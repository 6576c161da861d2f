import Mathlib.Algebra.Order.Field.Basic
import Mathlib.Algebra.Order.Group.Multiset
import Mathlib.Order.Interval.Set.Basic
import Mathlib.Tactic.Abel
import Mathlib.Tactic.Common

/-!
# The nodes of the ikd-Tree

The map of FAST-LIO is a k-d tree that deletes lazily: a box deletion that covers the range of a
node marks the node and leaves its sons to be marked by the next `Push_Down`. A node counts the
points of its subtree and those that are deleted, and keeps a range that its points lie in.

`KdTree.live` are the points that are in the tree, with the marks that are still to be pushed down,
and `KdTree.WellFormed` says that the counts and the ranges of the nodes are right for them.
-/

namespace IkdTree

/-! ### Numerals -/

lemma neZero_three : NeZero 3 := ⟨by decide⟩

lemma atLeastTwo_two : Nat.AtLeastTwo 2 := ⟨le_rfl⟩

lemma atLeastTwo_five : Nat.AtLeastTwo 5 := ⟨by decide⟩

lemma atLeastTwo_ten : Nat.AtLeastTwo 10 := ⟨by decide⟩

/-! ### Nodes -/

/-- The template parameter of the tree: a point has the coordinates `x`, `y` and `z`. -/
class PointType (P : Type*) (K : outParam Type*) where
  coord : P → Fin 3 → K

export PointType (coord)

/-- A point that is its coordinates. -/
instance {K : Type*} : PointType (Fin 3 → K) K := ⟨id⟩

structure BoxPointType (K : Type*) where
  vertexMin : Fin 3 → K
  vertexMax : Fin 3 → K

structure KdTreeNode (P K : Type*) where
  point : P
  divisionAxis : Fin 3
  treeSize : ℕ
  invalidPointNum : ℕ
  downDelNum : ℕ
  pointDeleted : Bool
  treeDeleted : Bool
  pointDownsampleDeleted : Bool
  treeDownsampleDeleted : Bool
  needPushDownToLeft : Bool
  needPushDownToRight : Bool
  /-- `none` is the range from `INFINITY` to `-INFINITY` that `Update` starts from. -/
  nodeRange : Option (BoxPointType K)

/-- A subtree, which is `null` for the null pointer. -/
inductive KdTree (P K : Type*) where
  | null : KdTree P K
  | node (root : KdTreeNode P K) (leftSon rightSon : KdTree P K) : KdTree P K

variable {P K : Type*}

namespace KdTree

/-! ### What a node reads of its sons

A null son counts nothing and leaves a conjunction over the sons as it is. -/

def isNull : KdTree P K → Bool
  | null => true
  | node _ _ _ => false

def treeSize : KdTree P K → ℕ
  | null => 0
  | node root _ _ => root.treeSize

def invalidPointNum : KdTree P K → ℕ
  | null => 0
  | node root _ _ => root.invalidPointNum

def downDelNum : KdTree P K → ℕ
  | null => 0
  | node root _ _ => root.downDelNum

def treeDeleted : KdTree P K → Bool
  | null => true
  | node root _ _ => root.treeDeleted

def treeDownsampleDeleted : KdTree P K → Bool
  | null => true
  | node root _ _ => root.treeDownsampleDeleted

def nodeRange : KdTree P K → Option (BoxPointType K)
  | null => none
  | node root _ _ => root.nodeRange

/-- The number of nodes, on which the recursions below go down. -/
def nodes : KdTree P K → ℕ
  | null => 0
  | node _ l r => l.nodes + r.nodes + 1

@[simp] lemma isNull_null : (null : KdTree P K).isNull = true := rfl

@[simp] lemma isNull_node (d : KdTreeNode P K) (l r : KdTree P K) :
    (node d l r).isNull = false := rfl

@[simp] lemma treeSize_null : (null : KdTree P K).treeSize = 0 := rfl

@[simp] lemma treeSize_node (d : KdTreeNode P K) (l r : KdTree P K) :
    (node d l r).treeSize = d.treeSize := rfl

@[simp] lemma treeDeleted_null : (null : KdTree P K).treeDeleted = true := rfl

@[simp] lemma treeDeleted_node (d : KdTreeNode P K) (l r : KdTree P K) :
    (node d l r).treeDeleted = d.treeDeleted := rfl

@[simp] lemma nodeRange_node (d : KdTreeNode P K) (l r : KdTree P K) :
    (node d l r).nodeRange = d.nodeRange := rfl

lemma isNull_iff {t : KdTree P K} : t.isNull = true ↔ t = null := by
  cases t <;> simp

end KdTree

/-! ### Push_Down -/

/-- What `Push_Down` writes into a son, and `run_operation` into the root of a rebuilt tree, from
the two marks of the father. -/
def KdTreeNode.receive (treeDeleted treeDownsampleDeleted : Bool) (son : KdTreeNode P K) :
    KdTreeNode P K :=
  let tds := son.treeDownsampleDeleted || treeDownsampleDeleted
  let pds := son.pointDownsampleDeleted || treeDownsampleDeleted
  let td := treeDeleted || tds
  let downDelNum := if treeDownsampleDeleted then son.treeSize else son.downDelNum
  { son with
    treeDownsampleDeleted := tds
    pointDownsampleDeleted := pds
    treeDeleted := td
    pointDeleted := td || pds
    downDelNum := downDelNum
    invalidPointNum := if treeDeleted then son.treeSize else downDelNum
    needPushDownToLeft := true
    needPushDownToRight := true }

namespace KdTree

def receive (treeDeleted treeDownsampleDeleted : Bool) : KdTree P K → KdTree P K
  | null => null
  | node son l r => node (son.receive treeDeleted treeDownsampleDeleted) l r

/-- A son after the father's `Push_Down`; `need` is the father's flag for this son. -/
def pushSon (need : Bool) (root : KdTreeNode P K) (son : KdTree P K) : KdTree P K :=
  if need then son.receive root.treeDeleted root.treeDownsampleDeleted else son

end KdTree

/-- A node after its `Push_Down`: the flag for a null son stays. -/
def KdTreeNode.pushed (root : KdTreeNode P K) (l r : KdTree P K) : KdTreeNode P K :=
  { root with
    needPushDownToLeft := root.needPushDownToLeft && l.isNull
    needPushDownToRight := root.needPushDownToRight && r.isNull }

namespace KdTree

/-- `Push_Down`. -/
def pushDown : KdTree P K → KdTree P K
  | null => null
  | node root l r => node (root.pushed l r) (pushSon root.needPushDownToLeft root l)
      (pushSon root.needPushDownToRight root r)

/-- `t'` is left of `t` by a function that only pushes marks down. -/
inductive PushedDown : KdTree P K → KdTree P K → Prop where
  | refl (t : KdTree P K) : PushedDown t t
  | node {d : KdTreeNode P K} {l r l' r' : KdTree P K}
      (hl : PushedDown (pushSon d.needPushDownToLeft d l) l')
      (hr : PushedDown (pushSon d.needPushDownToRight d r) r') :
      PushedDown (node d l r) (node (d.pushed l r) l' r')
  | trans {t t' t'' : KdTree P K} (h : PushedDown t t') (h' : PushedDown t' t'') :
      PushedDown t t''

@[simp] lemma nodes_receive (td tds : Bool) (t : KdTree P K) :
    (t.receive td tds).nodes = t.nodes := by
  cases t <;> rfl

@[simp] lemma nodes_pushSon (need : Bool) (d : KdTreeNode P K) (t : KdTree P K) :
    (pushSon need d t).nodes = t.nodes := by
  unfold pushSon
  split_ifs <;> simp

@[simp] lemma treeSize_pushSon (need : Bool) (d : KdTreeNode P K) (t : KdTree P K) :
    (pushSon need d t).treeSize = t.treeSize := by
  unfold pushSon
  split_ifs
  · cases t <;> rfl
  · rfl

@[simp] lemma isNull_pushSon (need : Bool) (d : KdTreeNode P K) (t : KdTree P K) :
    (pushSon need d t).isNull = t.isNull := by
  unfold pushSon
  split_ifs
  · cases t <;> rfl
  · rfl

@[simp] lemma pushSon_null (need : Bool) (d : KdTreeNode P K) :
    pushSon need d (null : KdTree P K) = null := by
  unfold pushSon
  split_ifs <;> rfl

lemma pushSon_true (d : KdTreeNode P K) (t : KdTree P K) :
    pushSon true d t = t.receive d.treeDeleted d.treeDownsampleDeleted := rfl

/-- The induction that the functions on trees follow: the sons are used after a `Push_Down`. -/
theorem pushInduction {motive : KdTree P K → Prop} (null : motive null)
    (node : ∀ d l r, motive (pushSon d.needPushDownToLeft d l) →
      motive (pushSon d.needPushDownToRight d r) → motive (node d l r)) (t : KdTree P K) :
    motive t := by
  induction hn : t.nodes using Nat.strong_induction_on generalizing t with
  | _ n ih =>
    cases t with
    | null => exact null
    | node d l r =>
      subst hn
      refine node d l r (ih _ ?_ _ rfl) (ih _ ?_ _ rfl)
      · simp only [nodes_pushSon, nodes]
        omega
      · simp only [nodes_pushSon, nodes]
        omega

end KdTree

/-! ### The points of a tree -/

namespace KdTreeNode

/-- The node's own point among the points that are in the tree. -/
def ownLive (d : KdTreeNode P K) : List P := if d.pointDeleted then [] else [d.point]

/-- The node's own point among those that no downsampling has deleted. -/
def ownKept (d : KdTreeNode P K) : Multiset P := if d.pointDownsampleDeleted then 0 else {d.point}

/-- The node's own point among those that a box deletion has removed. -/
def ownRemoved (d : KdTreeNode P K) : Multiset P :=
  if d.pointDeleted && !d.pointDownsampleDeleted then {d.point} else 0

/-- The three agree when a point that downsampling has deleted is deleted. -/
lemma ownKept_eq {d : KdTreeNode P K}
    (h : d.pointDownsampleDeleted = true → d.pointDeleted = true) :
    d.ownKept = (d.ownLive : Multiset P) + d.ownRemoved := by
  cases hpds : d.pointDownsampleDeleted with
  | false => cases hpd : d.pointDeleted <;> simp [ownKept, ownLive, ownRemoved, hpd, hpds]
  | true => simp [ownKept, ownLive, ownRemoved, hpds, h hpds]

end KdTreeNode

namespace KdTree

/-- The points that are in the tree, in the order in which `flatten` finds them. A mark that is
still to be pushed down is counted as pushed. -/
def live : KdTree P K → List P
  | null => []
  | node d l r => d.ownLive ++
      (if d.needPushDownToLeft && d.treeDeleted then [] else l.live) ++
      (if d.needPushDownToRight && d.treeDeleted then [] else r.live)

/-- The points that are in the tree, in no order. -/
def points (t : KdTree P K) : Multiset P := t.live

/-- The points that no downsampling has deleted: those in the tree and those that a box deletion
has removed. -/
def kept : KdTree P K → Multiset P
  | null => 0
  | node d l r => d.ownKept +
      (if d.needPushDownToLeft && d.treeDownsampleDeleted then 0 else l.kept) +
      (if d.needPushDownToRight && d.treeDownsampleDeleted then 0 else r.kept)

lemma points_node (d : KdTreeNode P K) (l r : KdTree P K) :
    (node d l r).points = d.ownLive +
      (if d.needPushDownToLeft && d.treeDeleted then 0 else l.points) +
      (if d.needPushDownToRight && d.treeDeleted then 0 else r.points) := by
  simp only [points, live, ← Multiset.coe_add]
  congr 2 <;> split_ifs <;> rfl

lemma isNull_of_points {t : KdTree P K} (h : t.points ≠ 0) : t.isNull = false := by
  cases t with
  | null => exact absurd rfl h
  | node d l r => rfl

/-- The points that a box deletion has removed and that no rebuild has dropped yet. -/
def removed : KdTree P K → Multiset P
  | null => 0
  | node d l r => d.ownRemoved +
      (if d.needPushDownToLeft && d.treeDeleted then
        if d.treeDownsampleDeleted then 0 else l.kept else l.removed) +
      (if d.needPushDownToRight && d.treeDeleted then
        if d.treeDownsampleDeleted then 0 else r.kept else r.removed)

/-- A null son, or a leaf as `Add_by_point` makes it. -/
def Fresh : KdTree P K → Prop
  | null => True
  | node d l r => l = null ∧ r = null ∧ d.pointDeleted = false ∧ d.treeDeleted = false ∧
      d.pointDownsampleDeleted = false ∧ d.treeDownsampleDeleted = false ∧
      d.invalidPointNum = 0 ∧ d.downDelNum = 0

def HasSon : KdTree P K → Prop
  | null => False
  | node _ l r => ¬(l.isNull = true ∧ r.isNull = true)

/-- A node with a son is not one that has just been made. -/
lemma HasSon.not_fresh {t : KdTree P K} (h : t.HasSon) : ¬t.Fresh := by
  cases t with
  | null => exact h.elim
  | node d l r =>
    rintro ⟨rfl, rfl, -⟩
    exact h ⟨rfl, rfl⟩

end KdTree

section WellFormed

variable [PointType P K] [LE K]

/-- The point is in the range, ends included. -/
def BoxPointType.Covers (b : BoxPointType K) (p : P) : Prop :=
  b.vertexMin ≤ coord p ∧ coord p ≤ b.vertexMax

/-- The range is the smallest one that the points are in. -/
structure BoxPointType.Bounds (b : BoxPointType K) (ps : List P) : Prop where
  covers : ∀ p ∈ ps, b.Covers p
  vertexMin : ps ≠ [] → ∀ i, ∃ p ∈ ps, coord p i = b.vertexMin i
  vertexMax : ps ≠ [] → ∀ i, ∃ p ∈ ps, coord p i = b.vertexMax i

namespace BoxPointType

variable {b : BoxPointType K} {ps qs : List P}

lemma bounds_nil : b.Bounds ([] : List P) := ⟨by simp, by simp, by simp⟩

lemma Bounds.congr (h : b.Bounds ps) (hmem : ∀ p, p ∈ ps ↔ p ∈ qs) : b.Bounds qs := by
  have hne : qs ≠ [] → ps ≠ [] := by
    rintro hqs rfl
    exact hqs (List.eq_nil_iff_forall_not_mem.mpr fun p hp => by simpa using (hmem p).mpr hp)
  refine ⟨fun p hp => h.covers p ((hmem p).mpr hp), fun hqs i => ?_, fun hqs i => ?_⟩
  · obtain ⟨p, hp, hmin⟩ := h.vertexMin (hne hqs) i
    exact ⟨p, (hmem p).mp hp, hmin⟩
  · obtain ⟨p, hp, hmax⟩ := h.vertexMax (hne hqs) i
    exact ⟨p, (hmem p).mp hp, hmax⟩

end BoxPointType

/-- The fields of a node are right for the points of its subtree. -/
structure NodeOk (d : KdTreeNode P K) (l r : KdTree P K) : Prop where
  invalidPointNum : d.invalidPointNum + (KdTree.node d l r).live.length = d.treeSize
  treeDeleted : d.treeDeleted = true ↔ (KdTree.node d l r).live = []
  downsampleDeleted : d.pointDownsampleDeleted = true → d.pointDeleted = true
  treeDownsampleDeleted : d.treeDownsampleDeleted = true → d.treeDeleted = true
  nodeRange : ∃ b, d.nodeRange = some b ∧ b.Bounds (KdTree.node d l r).live
  /-- A flag means that there is a mark to push down, unless the son has come after it. -/
  needPushDownToLeft : d.needPushDownToLeft = true → d.treeDeleted = true ∨ l.Fresh
  needPushDownToRight : d.needPushDownToRight = true → d.treeDeleted = true ∨ r.Fresh
  /-- A mark is pushed down to both sons at once. -/
  paired : d.treeDeleted = true → l.isNull = false → r.isNull = false →
    d.needPushDownToLeft = d.needPushDownToRight
  leaf : l.isNull = true → r.isNull = true → d.treeSize ≤ 1

/-- Every node is right for the points of its subtree. -/
def KdTree.WellFormed : KdTree P K → Prop
  | .null => True
  | .node d l r => NodeOk d l r ∧ l.WellFormed ∧ r.WellFormed

end WellFormed

namespace KdTree

variable {t l r : KdTree P K} {d : KdTreeNode P K} {need td tds : Bool}

/-- The part of `kept` that comes from a son. -/
private lemma kept_son (htd : tds = true → td = true)
    (ih : t.kept = t.points + t.removed) :
    (if need && tds then 0 else t.kept) =
      ((if need && td then [] else t.live : List P) : Multiset P) +
      (if need && td then if tds then 0 else t.kept else t.removed) := by
  cases need with
  | false => simpa [points] using ih
  | true =>
    cases td with
    | false =>
      cases tds with
      | false => simpa [points] using ih
      | true => simp at htd
    | true => simp

variable [PointType P K] [LE K]

@[simp] lemma wellFormed_null : (null : KdTree P K).WellFormed := trivial

lemma WellFormed.treeSize_eq (h : t.WellFormed) :
    t.invalidPointNum + t.live.length = t.treeSize := by
  cases t with
  | null => rfl
  | node d l r => exact h.1.invalidPointNum

/-- A tree of more than one node has a son. -/
lemma WellFormed.hasSon (h : t.WellFormed) (hsize : 1 < t.treeSize) : t.HasSon := by
  cases t with
  | null => simp at hsize
  | node d l r => exact fun hnull => absurd (h.1.leaf hnull.1 hnull.2) (not_le.mpr hsize)

/-- A tree is deleted when it has no points. -/
lemma WellFormed.treeDeleted_iff (h : t.WellFormed) : t.treeDeleted = true ↔ t.live = [] := by
  cases t with
  | null => simp [live]
  | node d l r => exact h.1.treeDeleted

lemma WellFormed.live_of_treeDeleted (h : t.WellFormed) (hd : t.treeDeleted = true) :
    t.live = [] :=
  h.treeDeleted_iff.mp hd

/-- A point that no downsampling has deleted is in the tree or removed. -/
lemma WellFormed.kept_eq (h : t.WellFormed) : t.kept = t.points + t.removed := by
  induction t with
  | null => rfl
  | node d l r ihl ihr =>
    obtain ⟨hd, hl, hr⟩ := h
    have htds := hd.treeDownsampleDeleted
    rw [kept, points, live, removed, kept_son htds (ihl hl), kept_son htds (ihr hr),
      KdTreeNode.ownKept_eq hd.downsampleDeleted,
      ← Multiset.coe_add, ← Multiset.coe_add]
    abel

/-! ### Pushing the marks of a well-formed node -/

/-- A son that its father marks as deleted. -/
lemma WellFormed.receive_true (h : t.WellFormed) (tds : Bool) :
    (t.receive true tds).WellFormed ∧ (t.receive true tds).live = [] ∧
      (t.receive true tds).removed ≤ (if tds then 0 else t.kept) := by
  cases t with
  | null => cases tds <;> simp [receive, live, kept, removed]
  | node d l r =>
    obtain ⟨hd, hl, hr⟩ := h
    obtain ⟨b, hb, -⟩ := hd.nodeRange
    have hlive : ((node d l r).receive true tds).live = [] := by
      simp [receive, KdTreeNode.receive, live, KdTreeNode.ownLive]
    refine ⟨⟨⟨?_, ⟨fun _ => hlive, ?_⟩, ?_, ?_, ⟨b, hb, ?_⟩, ?_, ?_, fun _ _ _ => rfl, hd.leaf⟩,
      hl, hr⟩, hlive, ?_⟩
    · rw [show (node (d.receive true tds) l r).live = [] from hlive]
      simp [KdTreeNode.receive]
    · simp [KdTreeNode.receive]
    · simp [KdTreeNode.receive]
    · simp [KdTreeNode.receive]
    · rw [show (node (d.receive true tds) l r).live = [] from hlive]
      exact BoxPointType.bounds_nil
    · simp [KdTreeNode.receive]
    · simp [KdTreeNode.receive]
    · have hown : (d.receive true false).ownRemoved = d.ownKept := by
        cases hpds : d.pointDownsampleDeleted <;>
          simp [KdTreeNode.receive, KdTreeNode.ownRemoved, KdTreeNode.ownKept, hpds]
      cases tds with
      | true => simp [receive, KdTreeNode.receive, removed, KdTreeNode.ownRemoved]
      | false =>
        have hremoved : ((node d l r).receive true false).removed = d.ownKept +
            (if d.treeDownsampleDeleted then 0 else l.kept) +
            (if d.treeDownsampleDeleted then 0 else r.kept) := by
          rw [← hown]
          simp [receive, KdTreeNode.receive, removed]
        have hson : ∀ (need : Bool) (son : KdTree P K),
            (if d.treeDownsampleDeleted then 0 else son.kept) ≤
              if need && d.treeDownsampleDeleted then 0 else son.kept := by
          intro need son
          cases d.treeDownsampleDeleted with
          | true => exact Multiset.zero_le _
          | false => simp
        rw [hremoved, kept]
        exact add_le_add (add_le_add le_rfl (hson _ l)) (hson _ r)

/-- A son that has come after the mark stays as it is. -/
lemma WellFormed.receive_false (h : t.WellFormed) (hf : t.Fresh) :
    (t.receive false false).WellFormed ∧ (t.receive false false).live = t.live ∧
      (t.receive false false).removed = t.removed := by
  cases t with
  | null => exact ⟨trivial, rfl, rfl⟩
  | node d l r =>
    obtain ⟨hd, -, -⟩ := h
    obtain ⟨rfl, rfl, hpd, htd, hpds, htds, hinvalid, hdown⟩ := hf
    obtain ⟨b, hb, hbounds⟩ := hd.nodeRange
    have hlive : ((node d null null).receive false false).live = (node d null null).live := by
      simp [receive, KdTreeNode.receive, live, KdTreeNode.ownLive, hpd, hpds, htds]
    refine ⟨⟨⟨?_, ?_, ?_, ?_, ⟨b, hb, ?_⟩, fun _ => .inr trivial,
      fun _ => .inr trivial, fun _ h => absurd h (by simp), hd.leaf⟩, trivial, trivial⟩, hlive, ?_⟩
    · rw [show (node (d.receive false false) null null).live = _ from hlive]
      simpa [KdTreeNode.receive, hinvalid, hdown] using hd.invalidPointNum
    · rw [show (node (d.receive false false) null null).live = _ from hlive, ← hd.treeDeleted]
      simp [KdTreeNode.receive, htds, htd]
    · simp [KdTreeNode.receive, hpds]
    · simp [KdTreeNode.receive, htds]
    · rw [show (node (d.receive false false) null null).live = _ from hlive]
      exact hbounds
    · simp [receive, KdTreeNode.receive, removed, KdTreeNode.ownRemoved, hpd, hpds, htd, htds]

end KdTree

end IkdTree
