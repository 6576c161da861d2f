import HumanoidNavigation.IkdTree.Tree

/-!
# Push_Down and Update

A function on the tree pushes the marks of a node down, goes into the sons and updates the node
from them. `WellFormed.pushSon` says what the sons are after the first step and `wellFormed_update`
what the node is after the last.
-/

namespace IkdTree

variable {P K : Type*}

/-! ### Update -/

/-- The range around two ranges. -/
def BoxPointType.hull [Max K] [Min K] (a b : BoxPointType K) : BoxPointType K where
  vertexMin := fun i => min (a.vertexMin i) (b.vertexMin i)
  vertexMax := fun i => max (a.vertexMax i) (b.vertexMax i)

/-- `tmp_range`, which is the empty range if neither of the two is there. -/
def joinRange [Max K] [Min K] : Option (BoxPointType K) → Option (BoxPointType K) →
    Option (BoxPointType K) :=
  Option.merge BoxPointType.hull

variable {t t' l r l' r' : KdTree P K} {d : KdTreeNode P K} {need : Bool} {p : P}

/-- A mark that changes nothing for a son need not be looked at. -/
private lemma ite_son {α : Type*} {need mark : Bool} {x y : α}
    (h : need = true → mark = true → y = x) : (if need && mark then x else y) = y := by
  rw [ite_eq_right_iff, Bool.and_eq_true]
  exact fun hneed => (h hneed.1 hneed.2).symm

lemma KdTreeNode.pushed_needPushDownToLeft (h : (d.pushed l r).needPushDownToLeft = true) :
    l.isNull = true :=
  ((Bool.and_eq_true _ _).mp h).2

lemma KdTreeNode.pushed_needPushDownToRight (h : (d.pushed l r).needPushDownToRight = true) :
    r.isNull = true :=
  ((Bool.and_eq_true _ _).mp h).2

@[simp] lemma KdTreeNode.pushed_ownLive : (d.pushed l r).ownLive = d.ownLive := rfl

@[simp] lemma KdTreeNode.pushed_ownRemoved : (d.pushed l r).ownRemoved = d.ownRemoved := rfl

namespace KdTree

lemma isNull_pushed_left (h : (d.pushed l r).needPushDownToLeft = true) :
    (KdTree.pushSon d.needPushDownToLeft d l).isNull = true := by
  rw [isNull_pushSon, KdTreeNode.pushed_needPushDownToLeft h]

lemma isNull_pushed_right (h : (d.pushed l r).needPushDownToRight = true) :
    (KdTree.pushSon d.needPushDownToRight d r).isNull = true := by
  rw [isNull_pushSon, KdTreeNode.pushed_needPushDownToRight h]

lemma fresh_of_isNull (h : t.isNull = true) : t.Fresh := by
  rw [isNull_iff.mp h]
  trivial

end KdTree

variable [PointType P K]

/-- The range of one point. -/
def pointRange (p : P) : BoxPointType K := ⟨coord p, coord p⟩

section

variable [LinearOrder K]

/-- `Update`. The source has a case for two sons, for one and for none, which differ in that a
null son is left out. -/
def KdTreeNode.update (root : KdTreeNode P K) (l r : KdTree P K) : KdTreeNode P K :=
  let td := l.treeDeleted && r.treeDeleted && root.pointDeleted
  let noneDeleted := (l.isNull || !l.treeDeleted) && (r.isNull || !r.treeDeleted) &&
    !root.pointDeleted
  { root with
    treeSize := l.treeSize + r.treeSize + 1
    invalidPointNum := l.invalidPointNum + r.invalidPointNum + if root.pointDeleted then 1 else 0
    downDelNum := l.downDelNum + r.downDelNum + if root.pointDownsampleDeleted then 1 else 0
    treeDownsampleDeleted :=
      l.treeDownsampleDeleted && r.treeDownsampleDeleted && root.pointDownsampleDeleted
    treeDeleted := td
    nodeRange :=
      if td || noneDeleted then
        joinRange (joinRange l.nodeRange r.nodeRange) (some (pointRange root.point))
      else
        joinRange
          (joinRange (if l.treeDeleted then none else l.nodeRange)
            (if r.treeDeleted then none else r.nodeRange))
          (if root.pointDeleted then none else some (pointRange root.point)) }

/-- The subtree whose root is updated from the two sons. -/
def KdTree.update (root : KdTreeNode P K) (l r : KdTree P K) : KdTree P K :=
  .node (root.update l r) l r

end

namespace KdTree

/-! ### The sons after Push_Down -/

section

variable [LE K]

/-- A son after the `Push_Down` of its father has the points that it had with the father's
marks. -/
lemma WellFormed.pushSon (h : t.WellFormed)
    (hneed : need = true → d.treeDeleted = true ∨ t.Fresh)
    (htds : d.treeDownsampleDeleted = true → d.treeDeleted = true) :
    (pushSon need d t).WellFormed ∧
      (pushSon need d t).live = (if need && d.treeDeleted then [] else t.live) ∧
      (pushSon need d t).removed ≤ (if need && d.treeDeleted then
        if d.treeDownsampleDeleted then 0 else t.kept else t.removed) := by
  cases need with
  | false => exact ⟨h, rfl, le_rfl⟩
  | true =>
    rw [pushSon_true]
    cases htd : d.treeDeleted with
    | true => simpa using h.receive_true _
    | false =>
      have htds' : d.treeDownsampleDeleted = false := by
        cases htds' : d.treeDownsampleDeleted with
        | false => rfl
        | true => exact absurd (htds htds') (by simp [htd])
      have hf : t.Fresh := (hneed rfl).resolve_left (by simp [htd])
      obtain ⟨hw, hlive, hremoved⟩ := h.receive_false hf
      rw [htds']
      exact ⟨hw, hlive, hremoved.le⟩

/-- The points of a node are its own and those of its sons after `Push_Down`. -/
lemma WellFormed.pushed_eq (h : (node d l r).WellFormed) :
    (node d l r).live = d.ownLive ++ (KdTree.pushSon d.needPushDownToLeft d l).live ++
        (KdTree.pushSon d.needPushDownToRight d r).live ∧
      d.ownRemoved + (KdTree.pushSon d.needPushDownToLeft d l).removed +
        (KdTree.pushSon d.needPushDownToRight d r).removed ≤ (node d l r).removed := by
  obtain ⟨hd, hl, hr⟩ := h
  obtain ⟨-, hlivel, hremovedl⟩ := hl.pushSon hd.needPushDownToLeft hd.treeDownsampleDeleted
  obtain ⟨-, hliver, hremovedr⟩ := hr.pushSon hd.needPushDownToRight hd.treeDownsampleDeleted
  rw [hlivel, hliver]
  exact ⟨rfl, add_le_add (add_le_add le_rfl hremovedl) hremovedr⟩

lemma WellFormed.pushed_sons (h : (node d l r).WellFormed) :
    (KdTree.pushSon d.needPushDownToLeft d l).WellFormed ∧
      (KdTree.pushSon d.needPushDownToRight d r).WellFormed := by
  obtain ⟨hd, hl, hr⟩ := h
  exact ⟨(hl.pushSon hd.needPushDownToLeft hd.treeDownsampleDeleted).1,
    (hr.pushSon hd.needPushDownToRight hd.treeDownsampleDeleted).1⟩

lemma WellFormed.pushed_points (h : (node d l r).WellFormed) :
    (node d l r).points = d.ownLive + (KdTree.pushSon d.needPushDownToLeft d l).points +
        (KdTree.pushSon d.needPushDownToRight d r).points := by
  rw [points, h.pushed_eq.1, ← Multiset.coe_add, ← Multiset.coe_add]
  rfl

/-- The outcome of an operation: the new tree has these points, and it has removed, or the
operation has recorded as deleted, at most these. -/
structure Yields (t : KdTree P K) (recorded : List P) (points removed : Multiset P) : Prop where
  wellFormed : t.WellFormed
  points : t.points = points
  removed : t.removed + recorded ≤ removed

lemma Yields.mono {recorded : List P} {points removed removed' : Multiset P}
    (h : Yields t recorded points removed) (hle : removed ≤ removed') :
    Yields t recorded points removed' :=
  ⟨h.wellFormed, h.points, h.removed.trans hle⟩

lemma WellFormed.yields {t : KdTree P K} (h : t.WellFormed) : Yields t [] t.points t.removed :=
  ⟨h, rfl, (Multiset.add_zero _).le⟩

/-- `t'` has the points of `t`: the two differ in what has been pushed down. -/
structure SamePoints (t t' : KdTree P K) : Prop where
  wellFormed : t'.WellFormed
  treeSize : t'.treeSize = t.treeSize
  isNull : t'.isNull = t.isNull
  hasSon : t.HasSon → t'.HasSon
  live : t'.live = t.live
  removed : t'.removed ≤ t.removed

lemma SamePoints.trans {t'' : KdTree P K} (h : SamePoints t t') (h' : SamePoints t' t'') :
    SamePoints t t'' :=
  ⟨h'.wellFormed, h'.treeSize.trans h.treeSize, h'.isNull.trans h.isNull, h'.hasSon ∘ h.hasSon,
    h'.live.trans h.live, h'.removed.trans h.removed⟩

lemma SamePoints.points (h : SamePoints t t') : t'.points = t.points :=
  congrArg Multiset.ofList h.live

lemma SamePoints.yields (h : SamePoints t t') : Yields t' [] t.points t.removed :=
  ⟨h.wellFormed, h.points, (Multiset.add_zero _).le.trans h.removed⟩

lemma WellFormed.samePoints (h : t.WellFormed) : SamePoints t t :=
  ⟨h, rfl, rfl, id, rfl, le_rfl⟩

/-- A function that pushes the marks down and keeps the points of the sons keeps those of the
node. -/
lemma WellFormed.samePoints_node (h : (node d l r).WellFormed)
    (hl : SamePoints (KdTree.pushSon d.needPushDownToLeft d l) l')
    (hr : SamePoints (KdTree.pushSon d.needPushDownToRight d r) r') :
    SamePoints (node d l r) (node (d.pushed l r) l' r') := by
  obtain ⟨hlive, hremoved⟩ := h.pushed_eq
  obtain ⟨hd, -, -⟩ := h
  have hnulll (h : (d.pushed l r).needPushDownToLeft = true) : l' = null :=
    isNull_iff.mp (by rw [hl.isNull, isNull_pushSon, KdTreeNode.pushed_needPushDownToLeft h])
  have hnullr (h : (d.pushed l r).needPushDownToRight = true) : r' = null :=
    isNull_iff.mp (by rw [hr.isNull, isNull_pushSon, KdTreeNode.pushed_needPushDownToRight h])
  have hlive' : (node (d.pushed l r) l' r').live = (node d l r).live := by
    rw [hlive, ← hl.live, ← hr.live, KdTree.live, ite_son fun h _ => by rw [hnulll h]; rfl,
      ite_son fun h _ => by rw [hnullr h]; rfl]
    rfl
  have hremoved' : (node (d.pushed l r) l' r').removed ≤ (node d l r).removed := by
    refine le_trans ?_ hremoved
    rw [KdTree.removed, ite_son fun h _ => by rw [hnulll h]; exact (ite_self _).symm,
      ite_son fun h _ => by rw [hnullr h]; exact (ite_self _).symm]
    exact add_le_add (add_le_add le_rfl hl.removed) hr.removed
  obtain ⟨b, hb, hbounds⟩ := hd.nodeRange
  refine ⟨⟨⟨?_, ?_, hd.downsampleDeleted, hd.treeDownsampleDeleted, ⟨b, hb, ?_⟩, ?_, ?_, ?_, ?_⟩,
    hl.wellFormed, hr.wellFormed⟩, rfl, rfl, fun hson => ?_, hlive', hremoved'⟩
  · rw [hlive']
    exact hd.invalidPointNum
  · rw [hlive']
    exact hd.treeDeleted
  · rw [hlive']
    exact hbounds
  · exact fun h => .inr (by rw [hnulll h]; trivial)
  · exact fun h => .inr (by rw [hnullr h]; trivial)
  · intro _ hnl hnr
    rw [hl.isNull, isNull_pushSon] at hnl
    rw [hr.isNull, isNull_pushSon] at hnr
    simp [KdTreeNode.pushed, hnl, hnr]
  · rw [hl.isNull, hr.isNull, isNull_pushSon, isNull_pushSon]
    exact hd.leaf
  · rw [HasSon, hl.isNull, hr.isNull, isNull_pushSon, isNull_pushSon]
    exact hson

lemma PushedDown.samePoints (hpush : PushedDown t t') (h : t.WellFormed) : SamePoints t t' := by
  induction hpush with
  | refl t => exact h.samePoints
  | node hl hr ihl ihr =>
    obtain ⟨hwl, hwr⟩ := h.pushed_sons
    exact h.samePoints_node (ihl hwl) (ihr hwr)
  | trans h₁ h₂ ih₁ ih₂ =>
    have hsame := ih₁ h
    exact hsame.trans (ih₂ hsame.wellFormed)

lemma WellFormed.treeDeleted_of_treeDownsampleDeleted (h : t.WellFormed)
    (hd : t.treeDownsampleDeleted = true) : t.treeDeleted = true := by
  cases t with
  | null => rfl
  | node d l r => exact h.1.treeDownsampleDeleted hd

end

/-! ### The ranges -/

section

variable [LinearOrder K]

/-- The range is the smallest one of the points, and the empty one if there are none. -/
def Spans (b : Option (BoxPointType K)) (ps : List P) : Prop :=
  match b with
  | none => ps = []
  | some b => ps ≠ [] ∧ b.Bounds ps

lemma Spans.join {a b : Option (BoxPointType K)} {ps qs : List P} (ha : Spans a ps)
    (hb : Spans b qs) : Spans (joinRange a b) (ps ++ qs) := by
  cases a with
  | none =>
    obtain rfl : ps = [] := ha
    cases b <;> exact hb
  | some a =>
    cases b with
    | none =>
      obtain rfl : qs = [] := hb
      rw [List.append_nil]
      exact ha
    | some b =>
      obtain ⟨hps, ha⟩ := ha
      obtain ⟨hqs, hb⟩ := hb
      refine ⟨by simp [hps], fun p hp => ?_, fun _ i => ?_, fun _ i => ?_⟩
      · rcases List.mem_append.mp hp with hp | hp
        · obtain ⟨hmin, hmax⟩ := ha.covers p hp
          exact ⟨fun i => (min_le_left _ _).trans (hmin i),
            fun i => (hmax i).trans (le_max_left _ _)⟩
        · obtain ⟨hmin, hmax⟩ := hb.covers p hp
          exact ⟨fun i => (min_le_right _ _).trans (hmin i),
            fun i => (hmax i).trans (le_max_right _ _)⟩
      · obtain ⟨p, hp, hmin⟩ := ha.vertexMin hps i
        obtain ⟨q, hq, hmin'⟩ := hb.vertexMin hqs i
        rcases min_choice (a.vertexMin i) (b.vertexMin i) with h | h
        · exact ⟨p, List.mem_append_left _ hp, hmin.trans h.symm⟩
        · exact ⟨q, List.mem_append_right _ hq, hmin'.trans h.symm⟩
      · obtain ⟨p, hp, hmax⟩ := ha.vertexMax hps i
        obtain ⟨q, hq, hmax'⟩ := hb.vertexMax hqs i
        rcases max_choice (a.vertexMax i) (b.vertexMax i) with h | h
        · exact ⟨p, List.mem_append_left _ hp, hmax.trans h.symm⟩
        · exact ⟨q, List.mem_append_right _ hq, hmax'.trans h.symm⟩

lemma WellFormed.covers (h : t.WellFormed) (hp : p ∈ t.live) :
    ∃ b, t.nodeRange = some b ∧ b.Covers p := by
  cases t with
  | null => simp [live] at hp
  | node d l r =>
    obtain ⟨b, hb, hbounds⟩ := h.1.nodeRange
    exact ⟨b, hb, hbounds.covers p hp⟩

/-- What a node takes of its own point. -/
lemma spans_own : Spans (if d.pointDeleted then none else some (pointRange d.point)) d.ownLive := by
  cases hpd : d.pointDeleted with
  | true => simp [Spans, KdTreeNode.ownLive, hpd]
  | false =>
    simp only [Spans, KdTreeNode.ownLive, hpd, Bool.false_eq_true, if_false]
    refine ⟨by simp, ?_, fun _ i => ?_, fun _ i => ?_⟩
    · simp [pointRange, BoxPointType.Covers]
    · exact ⟨d.point, List.mem_singleton_self _, rfl⟩
    · exact ⟨d.point, List.mem_singleton_self _, rfl⟩

/-- What a node takes of a son. -/
lemma WellFormed.spans (h : t.WellFormed) :
    Spans (if t.treeDeleted then none else t.nodeRange) t.live := by
  cases htd : t.treeDeleted with
  | true => exact h.live_of_treeDeleted htd
  | false =>
    cases t with
    | null => simp at htd
    | node d l r =>
      obtain ⟨b, hb, hbounds⟩ := h.1.nodeRange
      have hlive : (node d l r).live ≠ [] := fun hnil => by
        simp [h.treeDeleted_iff.mpr hnil] at htd
      simp only [Bool.false_eq_true, if_false, nodeRange_node, hb]
      exact ⟨hlive, hbounds⟩

@[simp] lemma isSome_joinRange {a b : Option (BoxPointType K)} :
    (joinRange a b).isSome = (a.isSome || b.isSome) := by
  cases a <;> cases b <;> rfl

/-! ### The node after Update -/

lemma update_treeDeleted_iff : (d.update l r).treeDeleted = true ↔
    (l.treeDeleted = true ∧ r.treeDeleted = true) ∧ d.pointDeleted = true := by
  simp [KdTreeNode.update]

lemma update_treeDownsampleDeleted_iff : (d.update l r).treeDownsampleDeleted = true ↔
    (l.treeDownsampleDeleted = true ∧ r.treeDownsampleDeleted = true) ∧
      d.pointDownsampleDeleted = true := by
  simp [KdTreeNode.update]

lemma live_update (hl : l.WellFormed) (hr : r.WellFormed) :
    (update d l r).live = d.ownLive ++ l.live ++ r.live := by
  have htd := update_treeDeleted_iff (d := d) (l := l) (r := r)
  rw [update, live, ite_son fun _ h => hl.live_of_treeDeleted (htd.mp h).1.1,
    ite_son fun _ h => hr.live_of_treeDeleted (htd.mp h).1.2]
  rfl

lemma points_update (hl : l.WellFormed) (hr : r.WellFormed) :
    (update d l r).points = d.ownLive + l.points + r.points := by
  rw [points, live_update hl hr, ← Multiset.coe_add, ← Multiset.coe_add]
  rfl

/-- What is removed from a deleted tree is what is kept of it. -/
lemma WellFormed.removed_of_treeDeleted (h : t.WellFormed) (hd : t.treeDeleted = true) :
    t.removed = t.kept := by
  rw [h.kept_eq, points, h.live_of_treeDeleted hd, Multiset.coe_nil, zero_add]

lemma removed_update (hl : l.WellFormed) (hr : r.WellFormed) :
    (update d l r).removed ≤ d.ownRemoved + l.removed + r.removed := by
  have htd := update_treeDeleted_iff (d := d) (l := l) (r := r)
  have hson : ∀ {need : Bool} {t : KdTree P K}, t.WellFormed →
      ((d.update l r).treeDeleted = true → t.treeDeleted = true) →
      (if need && (d.update l r).treeDeleted then
        if (d.update l r).treeDownsampleDeleted then 0 else t.kept else t.removed) ≤ t.removed := by
    intro need t ht hd
    split_ifs with hneed
    · exact Multiset.zero_le _
    · exact (ht.removed_of_treeDeleted (hd ((Bool.and_eq_true _ _).mp hneed).2)).ge
    · exact le_rfl
  rw [update, removed]
  exact add_le_add (add_le_add le_rfl (hson hl fun h => (htd.mp h).1.1))
    (hson hr fun h => (htd.mp h).1.2)

lemma update_treeDeleted_iff_live (hl : l.WellFormed) (hr : r.WellFormed) :
    (d.update l r).treeDeleted = true ↔ d.ownLive ++ l.live ++ r.live = [] := by
  have hown : d.pointDeleted = true ↔ d.ownLive = [] := by
    cases hpd : d.pointDeleted <;> simp [KdTreeNode.ownLive, hpd]
  rw [update_treeDeleted_iff, hl.treeDeleted_iff, hr.treeDeleted_iff, hown, List.append_eq_nil_iff,
    List.append_eq_nil_iff]
  constructor
  · rintro ⟨⟨hl, hr⟩, hown⟩
    exact ⟨⟨hown, hl⟩, hr⟩
  · rintro ⟨⟨hown, hl⟩, hr⟩
    exact ⟨⟨hl, hr⟩, hown⟩

omit [PointType P K] [LinearOrder K] in
/-- The range of a son that is null or not deleted. -/
private lemma ite_treeDeleted (h : (t.isNull || !t.treeDeleted) = true) :
    (if t.treeDeleted then none else t.nodeRange) = t.nodeRange := by
  cases t with
  | null => rfl
  | node d l r =>
    have htd : d.treeDeleted = false := by simpa using h
    simp [htd]

/-- A node that is not deleted takes the ranges of what is not deleted. -/
lemma nodeRange_update_of_live (htd : (d.update l r).treeDeleted = false) :
    (d.update l r).nodeRange =
      joinRange (joinRange (if l.treeDeleted then none else l.nodeRange)
        (if r.treeDeleted then none else r.nodeRange))
        (if d.pointDeleted then none else some (pointRange d.point)) := by
  simp only [KdTreeNode.update] at htd ⊢
  rw [htd, Bool.false_or]
  split
  · rename_i hnone
    simp only [Bool.and_eq_true, Bool.not_eq_true'] at hnone
    obtain ⟨⟨hl, hr⟩, hpd⟩ := hnone
    rw [ite_treeDeleted hl, ite_treeDeleted hr, hpd]
    rfl
  · rfl

/-- The new range is the smallest one of the points, and if there are none it is still not the empty
one. -/
lemma nodeRange_update (hl : l.WellFormed) (hr : r.WellFormed) :
    ∃ b, (d.update l r).nodeRange = some b ∧ b.Bounds (d.ownLive ++ l.live ++ r.live) := by
  have hspans := (hl.spans.join hr.spans).join (spans_own (d := d))
  have hlive := update_treeDeleted_iff_live (d := d) hl hr
  cases htd : (d.update l r).treeDeleted with
  | true =>
    rw [hlive.mp htd]
    have hsome : (d.update l r).nodeRange.isSome = true := by
      simp only [KdTreeNode.update] at htd ⊢
      rw [htd, Bool.true_or, if_pos rfl]
      simp
    obtain ⟨b, hb⟩ := Option.isSome_iff_exists.mp hsome
    exact ⟨b, hb, BoxPointType.bounds_nil⟩
  | false =>
    have hne : d.ownLive ++ l.live ++ r.live ≠ [] := fun hnil => by simp [hlive.mpr hnil] at htd
    have hperm : (l.live ++ r.live ++ d.ownLive).Perm (d.ownLive ++ l.live ++ r.live) := by
      rw [List.append_assoc d.ownLive]
      exact List.perm_append_comm
    rw [← nodeRange_update_of_live htd] at hspans
    cases hb : (d.update l r).nodeRange with
    | none =>
      rw [hb] at hspans
      have hnil : l.live ++ r.live ++ d.ownLive = [] := hspans
      rw [hnil] at hperm
      exact absurd hperm.nil_eq.symm hne
    | some b =>
      rw [hb] at hspans
      exact ⟨b, rfl, hspans.2.congr fun p => hperm.mem_iff⟩

/-- `Update` makes a node well-formed whose sons are, unless it has a mark that is not pushed
down. -/
lemma wellFormed_update (hl : l.WellFormed) (hr : r.WellFormed)
    (hpds : d.pointDownsampleDeleted = true → d.pointDeleted = true)
    (hneedl : d.needPushDownToLeft = true → l.Fresh)
    (hneedr : d.needPushDownToRight = true → r.Fresh) : (update d l r).WellFormed := by
  have hlive : (node (d.update l r) l r).live = d.ownLive ++ l.live ++ r.live :=
    live_update hl hr
  have hnone : ∀ {t : KdTree P K} {need : Bool}, (need = true → t.Fresh) → t.isNull = false →
      t.treeDeleted = true → need = false := by
    intro t need hneed hnull htd
    cases t with
    | null => simp at hnull
    | node d l r => exact Bool.eq_false_iff.mpr fun h => by simp [(hneed h).2.2.2.1] at htd
  refine ⟨⟨?_, ?_, hpds, ?_, ?_, fun h => .inr (hneedl h), fun h => .inr (hneedr h), ?_, ?_⟩,
    hl, hr⟩
  · rw [hlive, List.length_append, List.length_append]
    have hl' := hl.treeSize_eq
    have hr' := hr.treeSize_eq
    cases hpd : d.pointDeleted <;>
      simp only [KdTreeNode.update, KdTreeNode.ownLive, hpd, if_true, Bool.false_eq_true, if_false,
        List.length_nil, List.length_singleton] <;> omega
  · rw [show (node (d.update l r) l r).live = _ from hlive]
    exact update_treeDeleted_iff_live hl hr
  · intro htds
    obtain ⟨⟨htdsl, htdsr⟩, hpds'⟩ := update_treeDownsampleDeleted_iff.mp htds
    exact update_treeDeleted_iff.mpr ⟨⟨hl.treeDeleted_of_treeDownsampleDeleted htdsl,
      hr.treeDeleted_of_treeDownsampleDeleted htdsr⟩, hpds hpds'⟩
  · rw [hlive]
    exact nodeRange_update hl hr
  · intro htd hnl hnr
    obtain ⟨⟨htdl, htdr⟩, -⟩ := update_treeDeleted_iff.mp htd
    exact (hnone hneedl hnl htdl).trans (hnone hneedr hnr htdr).symm
  · intro hnl hnr
    obtain rfl := isNull_iff.mp hnl
    obtain rfl := isNull_iff.mp hnr
    exact le_rfl

end

end KdTree

end IkdTree
