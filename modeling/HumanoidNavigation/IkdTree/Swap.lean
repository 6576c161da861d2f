import HumanoidNavigation.IkdTree.Operations

/-!
# Putting a rebuilt subtree into the tree

At the end of a rebuild the thread puts the new subtree into the place of the old one and updates
the nodes above it, up to the first that the main thread is working at or that has a mark from its
father to take. The tree keeps its points if the father of the new subtree has no mark that it has
not pushed down, `WellFormed.swap`. The thread does not look for that mark, which `Update` then
takes away.
-/

namespace IkdTree

variable {P K : Type*}

/-- The nodes whose `working_flag` is set, by the path that leads to them. -/
def WorkingFlags : Type := List Side → Bool

def WorkingFlags.below (working : WorkingFlags) (side : Side) : WorkingFlags :=
  fun path => working (side :: path)

namespace KdTree

/-- The subtree at the end of a path. -/
def subtree : List Side → KdTree P K → KdTree P K
  | [], t => t
  | _ :: _, null => null
  | .left :: path, node _ l _ => l.subtree path
  | .right :: path, node _ _ r => r.subtree path

variable {t t' l r l' r' new : KdTree P K} {d : KdTreeNode P K} {working : WorkingFlags}
  {pending : Bool} {path : List Side}

/-- A mark on a null son hides nothing. -/
private lemma ite_isNull {α : Type*} {need mark : Bool} {x y : α}
    (h : mark = true → need = true → t.isNull = true) (hxy : t.isNull = true → y = x) :
    (if need && mark then x else y) = y := by
  rw [ite_eq_right_iff, Bool.and_eq_true]
  exact fun hneed => (hxy (h hneed.2 hneed.1)).symm

lemma isNull_of_subtree (h : (t.subtree path).isNull = false) : t.isNull = false := by
  cases t with
  | null => cases path <;> simp [subtree] at h
  | node d l r => rfl

variable [PointType P K] [LinearOrder K]

/-- The new subtree in the place of the one at the end of the path, and whether the loop over the
fathers goes on above this node. `pending` is the flag of the node's father for this node. -/
def swap (new : KdTree P K) (working : WorkingFlags) (pending : Bool) :
    List Side → KdTree P K → KdTree P K × Bool
  | [], _ => (new, true)
  | _ :: _, null => (null, false)
  | .left :: path, node root l r =>
    let below := swap new (working.below .left) root.needPushDownToLeft path l
    if below.2 && !working [] && !pending then (update root below.1 r, true)
    else (node root below.1 r, false)
  | .right :: path, node root l r =>
    let below := swap new (working.below .right) root.needPushDownToRight path r
    if below.2 && !working [] && !pending then (update root l below.1, true)
    else (node root l below.1, false)

/-- Does the father of the subtree keep its mark for it? It has none, or the loop stops at it. -/
def swapSafe (working : WorkingFlags) (pending : Bool) : List Side → KdTree P K → Bool
  | [], _ => true
  | _ :: _, null => true
  | .left :: path, node root l _ =>
    (!path.isEmpty || !root.needPushDownToLeft || working [] || pending) &&
      swapSafe (working.below .left) root.needPushDownToLeft path l
  | .right :: path, node root _ r =>
    (!path.isEmpty || !root.needPushDownToRight || working [] || pending) &&
      swapSafe (working.below .right) root.needPushDownToRight path r

/-- `t'` may stand in the place of `t`. -/
structure Replaces (t t' : KdTree P K) : Prop where
  wellFormed : t'.WellFormed
  isNull : t'.isNull = t.isNull
  points : t'.points = t.points
  fresh : t.Fresh → t'.Fresh

lemma WellFormed.replaces (h : t.WellFormed) : Replaces t t := ⟨h, rfl, rfl, id⟩

/-- A node of which a son is replaced. -/
lemma Replaces.node (hl : Replaces l l') (hr : Replaces r r') (h : (node d l r).WellFormed) :
    Replaces (.node d l r) (.node d l' r') := by
  have hpoints : (KdTree.node d l' r').points = (KdTree.node d l r).points := by
    rw [points_node, points_node, hl.points, hr.points]
  obtain ⟨hd, -, -⟩ := h
  have hperm : (KdTree.node d l r).live.Perm (KdTree.node d l' r').live :=
    Multiset.coe_eq_coe.mp hpoints.symm
  obtain ⟨b, hb, hbounds⟩ := hd.nodeRange
  refine ⟨⟨⟨?_, ?_, hd.downsampleDeleted, hd.treeDownsampleDeleted,
    ⟨b, hb, hbounds.congr fun p => hperm.mem_iff⟩, fun hneed => ?_, fun hneed => ?_, ?_, ?_⟩,
    hl.wellFormed, hr.wellFormed⟩, rfl, hpoints, fun hf => ?_⟩
  · rw [← hperm.length_eq]
    exact hd.invalidPointNum
  · rw [hd.treeDeleted, ← List.length_eq_zero_iff, hperm.length_eq, List.length_eq_zero_iff]
  · exact (hd.needPushDownToLeft hneed).imp_right hl.fresh
  · exact (hd.needPushDownToRight hneed).imp_right hr.fresh
  · rw [hl.isNull, hr.isNull]
    exact hd.paired
  · rw [hl.isNull, hr.isNull]
    exact hd.leaf
  · obtain ⟨rfl, rfl, hflags⟩ := hf
    exact ⟨isNull_iff.mp hl.isNull, isNull_iff.mp hr.isNull, hflags⟩

/-- A node of which a son is replaced and that is updated, having no mark to push down. -/
lemma Replaces.update (hl : Replaces l l') (hr : Replaces r r')
    (h : (KdTree.node d l r).WellFormed)
    (hneedl : d.treeDeleted = true → d.needPushDownToLeft = true → l.isNull = true)
    (hneedr : d.treeDeleted = true → d.needPushDownToRight = true → r.isNull = true) :
    Replaces (.node d l r) (update d l' r') := by
  obtain ⟨hd, -, -⟩ := h
  have hfresh : ∀ {t : KdTree P K} {need : Bool}, (need = true → d.treeDeleted = true ∨ t.Fresh) →
      (d.treeDeleted = true → need = true → t.isNull = true) → need = true → t.Fresh :=
    fun hneed hnull h => (hneed h).elim (fun htd => fresh_of_isNull (hnull htd h)) id
  refine ⟨wellFormed_update hl.wellFormed hr.wellFormed hd.downsampleDeleted
    (fun h => hl.fresh (hfresh hd.needPushDownToLeft hneedl h))
    (fun h => hr.fresh (hfresh hd.needPushDownToRight hneedr h)), rfl, ?_, fun hf => ?_⟩
  · rw [points_update hl.wellFormed hr.wellFormed, hl.points, hr.points, points_node,
      ite_isNull hneedl fun h => by rw [isNull_iff.mp h]; rfl,
      ite_isNull hneedr fun h => by rw [isNull_iff.mp h]; rfl]
  · obtain ⟨rfl, rfl, hpd, -, hpds, -, -, -⟩ := hf
    rw [isNull_iff.mp hl.isNull, isNull_iff.mp hr.isNull]
    exact ⟨rfl, rfl, hpd, by simp [KdTreeNode.update, hpd], hpds, by simp [KdTreeNode.update, hpds],
      by simp [KdTreeNode.update, KdTree.invalidPointNum, hpd],
      by simp [KdTreeNode.update, KdTree.downDelNum, hpds]⟩

/-- The loop goes on above a node that has no mark to take. -/
lemma pending_of_swap (h : (swap new working pending path t).2 = true) (hpath : path ≠ []) :
    pending = false ∧ working [] = false := by
  match path, t with
  | [], _ => exact absurd rfl hpath
  | _ :: _, null => simp [swap] at h
  | .left :: path, .node d l r =>
    simp only [swap] at h
    split_ifs at h with hc
    simp only [Bool.and_eq_true, Bool.not_eq_true'] at hc
    exact ⟨hc.2, hc.1.2⟩
  | .right :: path, .node d l r =>
    simp only [swap] at h
    split_ifs at h with hc
    simp only [Bool.and_eq_true, Bool.not_eq_true'] at hc
    exact ⟨hc.2, hc.1.2⟩

/-- A mark for the other son is pushed down with the one for this son. -/
lemma isNull_of_paired (h : (KdTree.node d l r).WellFormed) :
    (d.needPushDownToLeft = false → l.isNull = false → d.treeDeleted = true →
        d.needPushDownToRight = true → r.isNull = true) ∧
      (d.needPushDownToRight = false → r.isNull = false → d.treeDeleted = true →
        d.needPushDownToLeft = true → l.isNull = true) := by
  obtain ⟨hd, -, -⟩ := h
  constructor
  · intro hneed hl htd hneed'
    by_contra hr
    have hpair := hd.paired htd hl (by simpa using hr)
    simp [hneed, hneed'] at hpair
  · intro hneed hr htd hneed'
    by_contra hl
    have hpair := hd.paired htd (by simpa using hl) hr
    simp [hneed, hneed'] at hpair

/-- The tree keeps its points when a rebuilt subtree is put into it, if the father of the subtree
keeps its mark. -/
theorem WellFormed.swap (h : t.WellFormed) (hnull : (t.subtree path).isNull = false)
    (hsafe : swapSafe working pending path t = true) (hnew : Replaces (t.subtree path) new) :
    Replaces t (swap new working pending path t).1 := by
  induction path generalizing t working pending with
  | nil => exact hnew
  | cons side path ih =>
    cases t with
    | null => exact h.replaces
    | node d l r =>
      cases side with
      | left =>
        simp only [swapSafe, Bool.and_eq_true] at hsafe
        have hl := ih h.2.1 hnull hsafe.2 hnew
        simp only [KdTree.swap]
        split_ifs with hc
        · simp only [Bool.and_eq_true, Bool.not_eq_true'] at hc
          have hneed : d.needPushDownToLeft = false := by
            cases path with
            | nil => simpa [hc.1.2, hc.2] using hsafe.1
            | cons side path => exact (pending_of_swap hc.1.1 (by simp)).1
          exact hl.update h.2.2.replaces h (fun _ hneed' => by simp [hneed] at hneed')
            ((isNull_of_paired h).1 hneed (isNull_of_subtree hnull))
        · exact hl.node h.2.2.replaces h
      | right =>
        simp only [swapSafe, Bool.and_eq_true] at hsafe
        have hr := ih h.2.2 hnull hsafe.2 hnew
        simp only [KdTree.swap]
        split_ifs with hc
        · simp only [Bool.and_eq_true, Bool.not_eq_true'] at hc
          have hneed : d.needPushDownToRight = false := by
            cases path with
            | nil => simpa [hc.1.2, hc.2] using hsafe.1
            | cons side path => exact (pending_of_swap hc.1.1 (by simp)).1
          exact h.2.1.replaces.update hr h
            ((isNull_of_paired h).2 hneed (isNull_of_subtree hnull))
            (fun _ hneed' => by simp [hneed] at hneed')
        · exact h.2.1.replaces.node hr h

end KdTree

end IkdTree
