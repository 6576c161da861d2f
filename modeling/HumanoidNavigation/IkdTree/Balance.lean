import HumanoidNavigation.IkdTree.Map

/-!
# The balance of the tree

A node that `Criterion_Check` lets through has at most the share `balance_criterion_param` of the
nodes below it on either side. A call checks the nodes on its way unless they are below
`Rebuild_Ptr`, and a tree that `BuildTree` makes passes. So as long as the rebuild thread has
nothing to do every node below the size at which the thread takes over is balanced, and a map of
that size is not high, `balanced_of_run`.
-/

namespace IkdTree

open Transition

attribute [local instance] atLeastTwo_five

variable {P K : Type*}

/-- `Rebuild_Ptr` when it is `nullptr`. -/
def RebuildPtr.null : RebuildPtr := fun _ => false

/-- The number of nodes on the longest way down. -/
def KdTree.height : KdTree P K → ℕ
  | null => 0
  | node _ l r => max l.height r.height + 1

section

variable [Field K] [LinearOrder K]

/-- The node counts its descendants, and if it is one that may be rebuilt on the way and is neither
small nor one for the rebuild thread, neither son has more than its share of them. -/
structure NodeShape (b : K) (allowRebuild : Bool) (d : KdTreeNode P K) (l r : KdTree P K) :
    Prop where
  treeSize : d.treeSize = l.treeSize + r.treeSize + 1
  balance : allowRebuild = true → 10 < d.treeSize → d.treeSize < 1500 →
    (l.treeSize : K) ≤ b * (l.treeSize + r.treeSize : ℕ) ∧
      (r.treeSize : K) ≤ b * (l.treeSize + r.treeSize : ℕ)

/-- The nodes of a tree in which the calls may rebuild what `Rebuild_Ptr` is not above. -/
def KdTree.Shaped (b : K) : RebuildPtr → Bool → KdTree P K → Prop
  | _, _, null => True
  | ptr, allowRebuild, node d l r => NodeShape b allowRebuild d l r ∧
      l.Shaped b (ptr.below .left) (allowRebuild && !ptr [.left]) ∧
      r.Shaped b (ptr.below .right) (allowRebuild && !ptr [.right])

namespace KdTree

variable {b : K} {ptr : RebuildPtr} {allowRebuild : Bool} {t l r l' r' : KdTree P K}
  {d d' : KdTreeNode P K}

@[simp] lemma shaped_null : (null : KdTree P K).Shaped b ptr allowRebuild := trivial

/-- The counts are right, whatever the functions may rebuild. -/
lemma Shaped.treeSize_eq (h : t.Shaped b ptr allowRebuild) : t.treeSize = t.nodes := by
  induction t generalizing ptr allowRebuild with
  | null => rfl
  | node d l r ihl ihr =>
    obtain ⟨hd, hl, hr⟩ := h
    rw [treeSize_node, hd.treeSize, ihl hl, ihr hr, nodes]

/-- A node whose sons are changed without a change of their sizes. -/
lemma Shaped.congr (h : (node d l r).Shaped b ptr allowRebuild) (hd : d'.treeSize = d.treeSize)
    (hl : l'.Shaped b (ptr.below .left) (allowRebuild && !ptr [.left]))
    (hr : r'.Shaped b (ptr.below .right) (allowRebuild && !ptr [.right]))
    (hsizel : l'.treeSize = l.treeSize) (hsizer : r'.treeSize = r.treeSize) :
    (node d' l' r').Shaped b ptr allowRebuild := by
  obtain ⟨⟨hsize, hbalance⟩, -, -⟩ := h
  refine ⟨⟨?_, ?_⟩, hl, hr⟩
  · rw [hd, hsize, hsizel, hsizer]
  · rw [hd, hsizel, hsizer]
    exact hbalance

lemma Shaped.receive (h : t.Shaped b ptr allowRebuild) (td tds : Bool) :
    (t.receive td tds).Shaped b ptr allowRebuild := by
  cases t with
  | null => trivial
  | node d l r => exact h.congr rfl h.2.1 h.2.2 rfl rfl

lemma Shaped.pushSon (h : t.Shaped b ptr allowRebuild) (need : Bool) (d : KdTreeNode P K) :
    (pushSon need d t).Shaped b ptr allowRebuild := by
  cases need with
  | false => exact h
  | true => exact h.receive _ _

/-- The sons of a node after its `Push_Down`. -/
lemma Shaped.pushed_sons (h : (node d l r).Shaped b ptr allowRebuild) :
    (KdTree.pushSon d.needPushDownToLeft d l).Shaped b (ptr.below .left)
        (allowRebuild && !ptr [.left]) ∧
      (KdTree.pushSon d.needPushDownToRight d r).Shaped b (ptr.below .right)
        (allowRebuild && !ptr [.right]) :=
  ⟨h.2.1.pushSon _ _, h.2.2.pushSon _ _⟩

/-- A function that only pushes marks down keeps the shape. -/
lemma PushedDown.shaped (hpush : PushedDown t t') (h : t.Shaped b ptr allowRebuild) :
    t'.Shaped b ptr allowRebuild ∧ t'.treeSize = t.treeSize := by
  induction hpush generalizing ptr allowRebuild with
  | refl t => exact ⟨h, rfl⟩
  | node hl hr ihl ihr =>
    obtain ⟨hsl, hsr⟩ := h.pushed_sons
    obtain ⟨hl', hsizel⟩ := ihl hsl
    obtain ⟨hr', hsizer⟩ := ihr hsr
    exact ⟨h.congr rfl hl' hr' (hsizel.trans (treeSize_pushSon _ _ _))
      (hsizer.trans (treeSize_pushSon _ _ _)), rfl⟩
  | trans h₁ h₂ ih₁ ih₂ =>
    obtain ⟨hs, hsize⟩ := ih₁ h
    obtain ⟨hs', hsize'⟩ := ih₂ hs
    exact ⟨hs', hsize'.trans hsize⟩

/-! ### The functions that change the tree -/

variable [IsStrictOrderedRing K] [PointType P K] {c : KdParams P K}

omit [PointType P K] in
private lemma share_le {k n : ℕ} (hb : 11 / 20 ≤ b) (h : 20 * k ≤ 11 * n) : (k : K) ≤ b * n := by
  have hcast : (20 : K) * k ≤ 11 * n := by exact_mod_cast h
  calc (k : K) ≤ 11 / 20 * n := by linarith
    _ ≤ b * n := mul_le_mul_of_nonneg_right hb n.cast_nonneg

/-- A tree that `BuildTree` makes passes everywhere. -/
lemma shaped_buildTree (hb : 11 / 20 ≤ b) (nth : NthElement P) (storage : List P) :
    (buildTree nth storage : KdTree P K).Shaped b ptr allowRebuild := by
  induction storage using buildInduction generalizing ptr allowRebuild with
  | nil =>
    rw [buildTree_nil]
    trivial
  | cons p ps ih =>
    obtain ⟨axis, left, right, q, -, hleft, hright, heq⟩ := buildTree_cons (K := K) nth p ps
    obtain ⟨-, -, -, hsizel⟩ := buildTree_spec (K := K) nth left
    obtain ⟨-, -, -, hsizer⟩ := buildTree_spec (K := K) nth right
    rw [heq]
    refine ⟨⟨rfl, fun _ hsmall _ => ?_⟩, ih left (by omega), ih right (by omega)⟩
    have hsize : 10 < left.length + right.length + 1 := by
      rw [← hsizel, ← hsizer]
      exact hsmall
    rw [hsizel, hsizer]
    exact ⟨share_le hb (by omega), share_le hb (by omega)⟩

/-- What a node that passes says of its sons. -/
lemma balanced_of_criterionCheck (hsmall : 10 < l.treeSize + r.treeSize + 1)
    (hcheck : (update d l r).criterionCheck c = false) :
    (l.treeSize : K) ≤ c.balanceCriterionParam * (l.treeSize + r.treeSize : ℕ) ∧
      (r.treeSize : K) ≤ c.balanceCriterionParam * (l.treeSize + r.treeSize : ℕ) := by
  have hsize : (d.update l r).treeSize = l.treeSize + r.treeSize + 1 := rfl
  rw [update, criterionCheck, hsize, if_neg (not_le.mpr hsmall), Nat.add_sub_cancel] at hcheck
  simp only [Bool.or_eq_false_iff, decide_eq_false_iff_not, not_lt] at hcheck
  obtain ⟨-, hle, hge⟩ := hcheck
  have hpos : (0 : K) < (l.treeSize + r.treeSize : ℕ) := by exact_mod_cast (by omega)
  rw [div_le_iff₀ hpos] at hle
  rw [le_div_iff₀ hpos] at hge
  -- the share of one son is bounded from both sides, and the other son has the rest
  have hsum : ((l.treeSize + r.treeSize : ℕ) : K) = l.treeSize + r.treeSize := Nat.cast_add _ _
  cases hnull : l.isNull with
  | true =>
    simp only [hnull, if_true] at hle hge
    have hzero : (l.treeSize : K) = 0 := by
      rw [isNull_iff.mp hnull, treeSize_null, Nat.cast_zero]
    exact ⟨by linarith, hle⟩
  | false =>
    simp only [hnull, Bool.false_eq_true, if_false] at hle hge
    exact ⟨hle, by linarith⟩

/-- A node that has been updated and, if it is one to check, has been checked. -/
lemma shaped_checkRebuild (hb : 11 / 20 ≤ c.balanceCriterionParam)
    (hl : l.Shaped c.balanceCriterionParam (ptr.below .left) (allowRebuild && !ptr [.left]))
    (hr : r.Shaped c.balanceCriterionParam (ptr.below .right) (allowRebuild && !ptr [.right])) :
    ((update d l r).checkRebuild c allowRebuild).1.Shaped c.balanceCriterionParam ptr
      allowRebuild := by
  have hchecked (hbalance : allowRebuild = true → 10 < l.treeSize + r.treeSize + 1 →
      l.treeSize + r.treeSize + 1 < 1500 →
      (l.treeSize : K) ≤ c.balanceCriterionParam * (l.treeSize + r.treeSize : ℕ) ∧
        (r.treeSize : K) ≤ c.balanceCriterionParam * (l.treeSize + r.treeSize : ℕ)) :
      (update d l r).Shaped c.balanceCriterionParam ptr allowRebuild :=
    ⟨⟨rfl, hbalance⟩, hl, hr⟩
  unfold KdTree.checkRebuild
  by_cases hcheck : (allowRebuild && (update d l r).criterionCheck c) = true
  · rw [if_pos hcheck, rebuild]
    split_ifs with hsize
    · exact hchecked fun _ _ hsmall => absurd hsize (not_le.mpr hsmall)
    · exact shaped_buildTree hb _ _
  · rw [if_neg hcheck]
    refine hchecked fun hallow hsmall _ => ?_
    rw [hallow, Bool.true_and, Bool.not_eq_true] at hcheck
    exact balanced_of_criterionCheck hsmall hcheck

/-- `Add_by_point` leaves the nodes on its way balanced. -/
lemma Shaped.addByPoint (h : t.Shaped c.balanceCriterionParam ptr allowRebuild)
    (hb : 11 / 20 ≤ c.balanceCriterionParam) (point : P) (fatherAxis : Fin 3) :
    (t.addByPoint c ptr allowRebuild point fatherAxis).1.Shaped c.balanceCriterionParam ptr
      allowRebuild := by
  induction t using pushInduction generalizing ptr allowRebuild fatherAxis with
  | null =>
    rw [addByPoint_null]
    exact ⟨⟨rfl, fun _ hsmall _ => absurd hsmall (by simp [KdTreeNode.update])⟩, trivial, trivial⟩
  | node d l r ihl ihr =>
    obtain ⟨hl, hr⟩ := h.pushed_sons
    rw [KdTree.addByPoint]
    simp only
    split_ifs
    · exact shaped_checkRebuild hb (ihl hl _) hr
    · exact shaped_checkRebuild hb hl (ihr hr _)

/-- `Delete_by_range` leaves the nodes on its way balanced. -/
lemma Shaped.deleteByRange (h : t.Shaped c.balanceCriterionParam ptr allowRebuild)
    (hb : 11 / 20 ≤ c.balanceCriterionParam) (box : BoxPointType K) (isDownsample : Bool) :
    (t.deleteByRange c ptr box allowRebuild isDownsample).2.1.Shaped c.balanceCriterionParam ptr
      allowRebuild := by
  induction t using pushInduction generalizing ptr allowRebuild with
  | null =>
    rw [KdTree.deleteByRange]
    trivial
  | node d l r ihl ihr =>
    obtain ⟨hl, hr⟩ := h.pushed_sons
    have hpushed : (node (d.pushed l r) (KdTree.pushSon d.needPushDownToLeft d l)
        (KdTree.pushSon d.needPushDownToRight d r)).Shaped c.balanceCriterionParam ptr
          allowRebuild :=
      h.congr rfl hl hr (treeSize_pushSon _ _ _) (treeSize_pushSon _ _ _)
    rw [KdTree.deleteByRange]
    simp only
    by_cases htd : d.treeDeleted = true
    · rw [if_pos htd]
      exact h
    rw [if_neg htd]
    by_cases hout : box.isOutside (d.pushed l r).nodeRange = true
    · rw [if_pos hout]
      exact hpushed
    rw [if_neg hout]
    by_cases hin : box.covers (d.pushed l r).nodeRange = true
    · rw [if_pos hin]
      exact hpushed.congr rfl hl hr rfl rfl
    rw [if_neg hin]
    exact shaped_checkRebuild hb (ihl hl) (ihr hr)

/-! ### The height -/

omit [Field K] [LinearOrder K] [IsStrictOrderedRing K] [PointType P K] in
lemma height_le_nodes (t : KdTree P K) : t.height ≤ t.nodes := by
  induction t with
  | null => exact le_rfl
  | node d l r ihl ihr =>
    simp only [height, nodes]
    omega

omit [PointType P K] in
/-- Below the size of the rebuild thread each level takes a share of the nodes away. -/
lemma Shaped.height_le {k : ℕ} (h : t.Shaped b .null true) (hb : 0 ≤ b)
    (hsmall : t.treeSize < 1500) (hk : t.treeSize * b ^ k ≤ 10) : t.height ≤ 10 + k := by
  induction k generalizing t with
  | zero =>
    have hsize : t.treeSize ≤ 10 := by
      rw [pow_zero, mul_one] at hk
      exact_mod_cast hk
    exact (height_le_nodes t).trans (h.treeSize_eq ▸ hsize)
  | succ k ih =>
    rcases le_or_gt t.treeSize 10 with hsize | hsize
    · exact ((height_le_nodes t).trans (h.treeSize_eq ▸ hsize)).trans (Nat.le_add_right _ _)
    cases t with
    | null => simp at hsize
    | node d l r =>
      obtain ⟨⟨htree, hbalance⟩, hl, hr⟩ := h
      obtain ⟨hlel, hler⟩ := hbalance rfl hsize hsmall
      rw [treeSize_node] at hsmall hk
      have hson {son : KdTree P K} (hle : (son.treeSize : K) ≤ b * (l.treeSize + r.treeSize : ℕ)) :
          son.treeSize * b ^ k ≤ 10 := by
        have hcast : ((l.treeSize + r.treeSize : ℕ) : K) ≤ d.treeSize := by
          exact_mod_cast (by omega)
        calc (son.treeSize : K) * b ^ k ≤ b * (l.treeSize + r.treeSize : ℕ) * b ^ k :=
              mul_le_mul_of_nonneg_right hle (pow_nonneg hb k)
          _ ≤ b * d.treeSize * b ^ k :=
              mul_le_mul_of_nonneg_right (mul_le_mul_of_nonneg_left hcast hb) (pow_nonneg hb k)
          _ = d.treeSize * b ^ (k + 1) := by ring
          _ ≤ 10 := hk
      have hhl := ih hl (by omega) (hson hlel)
      have hhr := ih hr (by omega) (hson hler)
      simp only [height]
      omega

end KdTree

/-! ### Runs -/

/-- The rebuild thread has nothing to do during the call. -/
def MapEvent.Quiet : MapEvent P K → Prop
  | .addPoints _ points => ∀ q ∈ points, q.1 = (.null, .null)
  | .deletePointBoxes boxes => ∀ q ∈ boxes, q.1 = .null
  | .swap _ _ _ _ => False
  | _ => True

namespace Ikd

variable [IsStrictOrderedRing K] [PointType P K] {c : KdParams P K} {s t : Ikd P K} {n : ℕ}

/-- The tree is balanced as `Criterion_Check` asks for. -/
def Balanced (c : KdParams P K) (s : Ikd P K) : Prop :=
  s.rootNode.Shaped c.balanceCriterionParam .null true

lemma Balanced.addByPoint {point : P} (h : s.Balanced c) (hb : 11 / 20 ≤ c.balanceCriterionParam)
    (ht : s.addByPoint c .null true point = some t) : t.Balanced c := by
  obtain ⟨axis, -, rfl⟩ := Option.map_eq_some_iff.mp ht
  exact KdTree.Shaped.addByPoint h hb point axis

lemma Balanced.deleteByRange (h : s.Balanced c) (hb : 11 / 20 ≤ c.balanceCriterionParam)
    (box : BoxPointType K) (isDownsample : Bool) :
    (s.deleteByRange c .null box true isDownsample).2.Balanced c :=
  KdTree.Shaped.deleteByRange h hb box isDownsample

lemma Balanced.deletePointBoxes {boxes : List (RebuildPtr × BoxPointType K)} (h : s.Balanced c)
    (hb : 11 / 20 ≤ c.balanceCriterionParam) (hquiet : ∀ q ∈ boxes, q.1 = .null) :
    (s.deletePointBoxes c boxes).2.Balanced c := by
  induction boxes generalizing s with
  | nil => exact h
  | cons head boxes ih =>
    obtain ⟨ptr, box⟩ := head
    obtain ⟨rfl, hboxes⟩ := List.forall_mem_cons.mp hquiet
    exact ih (h.deleteByRange hb box false) hboxes

variable [FloorRing K]

lemma Balanced.addDownsampled {point : P} (h : s.Balanced c)
    (hb : 11 / 20 ≤ c.balanceCriterionParam)
    (ht : s.addDownsampled c (.null, .null) point = some (n, t)) : t.Balanced c := by
  set box := boxOfPoint c.downsampleSize point with hbox
  set found := s.rootNode.searchByRange box with hfound
  have hs : Balanced c { s with rootNode := found.1 } :=
    ((KdTree.pushedDown_searchByRange box s.rootNode).shaped h).1
  simp only [Ikd.addDownsampled, ← hbox, ← hfound] at ht
  split_ifs at ht with hadd hpos
  · obtain ⟨s', hs', heq⟩ := Option.map_eq_some_iff.mp ht
    obtain ⟨-, rfl⟩ := Prod.mk.inj heq
    exact (hs.deleteByRange hb box true).addByPoint hb hs'
  · obtain ⟨s', hs', heq⟩ := Option.map_eq_some_iff.mp ht
    obtain ⟨-, rfl⟩ := Prod.mk.inj heq
    exact hs.addByPoint hb hs'
  · obtain ⟨-, rfl⟩ := Prod.mk.inj (Option.some.inj ht)
    exact hs

lemma Balanced.addPoints {downsampleOn : Bool} {points : List ((RebuildPtr × RebuildPtr) × P)}
    (h : s.Balanced c) (hb : 11 / 20 ≤ c.balanceCriterionParam)
    (hquiet : ∀ q ∈ points, q.1 = (.null, .null))
    (ht : s.addPoints c downsampleOn points = some (n, t)) : t.Balanced c := by
  induction points generalizing s n with
  | nil =>
    obtain ⟨-, rfl⟩ := Prod.mk.inj (Option.some.inj ht)
    exact h
  | cons head points ih =>
    obtain ⟨ptr, point⟩ := head
    obtain ⟨rfl, hpoints⟩ := List.forall_mem_cons.mp hquiet
    cases downsampleOn with
    | true =>
      simp only [Ikd.addPoints, if_true, Option.bind_eq_bind, Option.bind_eq_some_iff] at ht
      obtain ⟨⟨added, s₁⟩, hadd, ⟨rest, t'⟩, hrest, heq⟩ := ht
      obtain ⟨-, rfl⟩ := Prod.mk.inj (Option.some.inj heq)
      exact ih (h.addDownsampled hb hadd) hpoints hrest
    | false =>
      simp only [Ikd.addPoints, Bool.false_eq_true, if_false, Option.bind_eq_bind,
        Option.bind_eq_some_iff] at ht
      obtain ⟨⟨added, s₁⟩, hadd, ⟨rest, t'⟩, hrest, heq⟩ := ht
      obtain ⟨-, rfl⟩ := Prod.mk.inj (Option.some.inj heq)
      obtain ⟨s', hs', heq'⟩ := Option.map_eq_some_iff.mp hadd
      obtain ⟨-, rfl⟩ := Prod.mk.inj heq'
      exact ih (h.addByPoint hb hs') hpoints hrest

end Ikd

variable [IsStrictOrderedRing K] [PointType P K] [FloorRing K] [Inhabited P] {c : KdParams P K}
  {s t : Ikd P K} {es : List (MapEvent P K)} {e : MapEvent P K}

lemma Ikd.Balanced.step (h : s.Balanced c) (hb : 11 / 20 ≤ c.balanceCriterionParam)
    (hquiet : e.Quiet) (he : s.step c e = some t) : t.Balanced c := by
  cases e with
  | build pointCloud =>
    obtain rfl := Option.some.inj he
    exact KdTree.shaped_buildTree hb c.nthElement pointCloud
  | addPoints downsampleOn points =>
    obtain ⟨⟨n, t'⟩, ht, rfl⟩ := Option.map_eq_some_iff.mp he
    exact h.addPoints hb hquiet ht
  | deletePointBoxes boxes =>
    obtain rfl := Option.some.inj he
    exact h.deletePointBoxes hb hquiet
  | boxSearch box =>
    obtain rfl := Option.some.inj he
    exact ((KdTree.pushedDown_searchByRange box s.rootNode).shaped h).1
  | nearestSearch point kNearest maxDist =>
    obtain rfl := Option.some.inj he
    exact ((pushedDown_search s.rootNode _).shaped h).1
  | flatten =>
    obtain rfl := Option.some.inj he
    exact ((KdTree.pushedDown_flatten s.rootNode).shaped h).1
  | acquireRemovedPoints =>
    obtain rfl := Option.some.inj he
    exact h
  | swap path working new recorded => exact hquiet.elim

/-- With a parameter of at least 11/20, as long as the rebuild thread has nothing to do the tree is
balanced, and with one of at most 3/5 a map below the size at which the thread takes over is at
most twenty nodes high. `BuildTree` itself puts more than half of the nodes below a node of even
size on one side. -/
theorem balanced_of_run (hb : 11 / 20 ≤ c.balanceCriterionParam)
    (hrun : Run (Ikd.step c) .empty es s) (hquiet : ∀ e ∈ es, e.Quiet) :
    s.Balanced c ∧ (c.balanceCriterionParam ≤ 3 / 5 → s.size < 1500 → s.rootNode.height ≤ 20) := by
  have hempty : (Ikd.empty : Ikd P K).Balanced c := trivial
  have hbalanced : s.Balanced c := Run.invariant_of_events hempty
    (fun s e t h hquiet he => h.step hb hquiet he) hrun hquiet
  refine ⟨hbalanced, fun hparam hsize => ?_⟩
  have hpos : 0 ≤ c.balanceCriterionParam := le_trans (by norm_num) hb
  refine hbalanced.height_le hpos hsize (k := 10) ?_
  have hcast : (s.rootNode.treeSize : K) ≤ 1499 := by exact_mod_cast Nat.le_of_lt_succ hsize
  calc (s.rootNode.treeSize : K) * c.balanceCriterionParam ^ 10 ≤ 1499 * (3 / 5) ^ 10 :=
        mul_le_mul hcast (pow_le_pow_left₀ hpos hparam 10) (pow_nonneg hpos 10) (by norm_num)
    _ ≤ 10 := by norm_num

end

theorem balanced_of_run_originDeleted : originDeleted.Balanced .node ∧
    ((3 / 5 : ℚ) ≤ 3 / 5 → originDeleted.size < 1500 → originDeleted.rootNode.height ≤ 20) :=
  balanced_of_run (by norm_num [KdParams.node]) run_originDeleted
    (List.forall_mem_cons.mpr ⟨trivial, List.forall_mem_singleton.mpr
      (List.forall_mem_singleton.mpr rfl)⟩)

end IkdTree
