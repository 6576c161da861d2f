import HumanoidNavigation.IkdTree.Operations
import HumanoidNavigation.Search.BinaryHeap
import HumanoidNavigation.Search.KNearest
import Mathlib.Algebra.Order.Ring.WithTop
import Mathlib.Data.Prod.Lex
import Mathlib.Tactic.Linarith

/-!
# The nearest points

`Nearest_Search` walks down the tree with the best points so far in a heap, the farthest at its
root, and leaves out the subtrees whose range is not nearer than that. It returns the nearest
points of the tree within the maximal distance, `nearestSearch_spec`.
-/

namespace IkdTree

open Search

attribute [local instance] neZero_three atLeastTwo_ten

variable {P K : Type*}

/-- A point with its squared distance. -/
structure PointTypeCmp (P K : Type*) where
  point : P
  dist : WithTop K

variable [PointType P K] [LinearOrder K]

/-- The comparison, when no two distances are too close: first the distance and then `x`. -/
def PointTypeCmp.key (c : PointTypeCmp P K) : WithTop K ×ₗ K := toLex (c.dist, coord c.point 0)

lemma PointTypeCmp.dist_le_of_key_le {a b : PointTypeCmp P K} (h : a.key ≤ b.key) :
    a.dist ≤ b.dist := by
  rcases Prod.Lex.le_iff.mp h with h | h
  · exact h.le
  · exact h.1.le

variable [Field K]

/-- The comparison of `PointType_CMP`, which goes by the `x` coordinate when the distances are
closer than `1e-10`. -/
def PointTypeCmp.lt (a b : PointTypeCmp P K) : Prop :=
  match a.dist, b.dist with
  | some x, some y => if |x - y| < 1 / 10 ^ 10 then coord a.point 0 < coord b.point 0 else x < y
  | x, y => x < y

instance : DecidableRel (PointTypeCmp.lt (P := P) (K := K)) := fun a b => by
  unfold PointTypeCmp.lt
  split <;> infer_instance

/-- `MANUAL_HEAP`. -/
structure ManualHeap (P K : Type*) where
  heap : ℕ → PointTypeCmp P K
  heapSize : ℕ
  cap : ℕ

namespace ManualHeap

def top (q : ManualHeap P K) : PointTypeCmp P K := q.heap 0

def pop (q : ManualHeap P K) : ManualHeap P K :=
  if q.heapSize = 0 then q
  else
    let last := q.heap (q.heapSize - 1)
    { q with
      heap := BinaryHeap.moveDown PointTypeCmp.lt last (q.heapSize - 1)
        (Function.update q.heap 0 last) 0
      heapSize := q.heapSize - 1 }

def push (q : ManualHeap P K) (point : PointTypeCmp P K) : ManualHeap P K :=
  if q.heapSize ≥ q.cap then q
  else
    { q with
      heap := BinaryHeap.floatUp PointTypeCmp.lt point (Function.update q.heap q.heapSize point)
        q.heapSize
      heapSize := q.heapSize + 1 }

end ManualHeap

/-- `calc_dist`. -/
def calcDist (a b : P) : K :=
  (coord a 0 - coord b 0) * (coord a 0 - coord b 0) +
    (coord a 1 - coord b 1) * (coord a 1 - coord b 1) +
    (coord a 2 - coord b 2) * (coord a 2 - coord b 2)

/-- What one axis adds to `min_dist` in `calc_box_dist`. -/
def axisDist (range : BoxPointType K) (point : P) (i : Fin 3) : K :=
  (if coord point i < range.vertexMin i then
    (coord point i - range.vertexMin i) * (coord point i - range.vertexMin i) else 0) +
  (if coord point i > range.vertexMax i then
    (coord point i - range.vertexMax i) * (coord point i - range.vertexMax i) else 0)

/-- `calc_box_dist`, infinite for a null pointer and for the empty range. -/
def KdTree.calcBoxDist (node : KdTree P K) (point : P) : WithTop K :=
  match node.nodeRange with
  | none => ⊤
  | some range => ((axisDist range point 0 + axisDist range point 1 + axisDist range point 2 : K))

/-- The step of `Search` at the point of a node. -/
def ManualHeap.offer (q : ManualHeap P K) (kNearest : ℕ) (point : P) (maxDistSqr : WithTop K)
    (candidate : P) : ManualHeap P K :=
  let dist : WithTop K := (calcDist point candidate : K)
  if dist ≤ maxDistSqr ∧ (q.heapSize < kNearest ∨ dist < q.top.dist) then
    (if q.heapSize ≥ kNearest then q.pop else q).push ⟨candidate, dist⟩
  else q

/-- `Search`, with the tree whose marks it has pushed down. -/
def KdTree.search (kNearest : ℕ) (point : P) (maxDistSqr : WithTop K) :
    KdTree P K → ManualHeap P K → KdTree P K × ManualHeap P K
  | null, q => (null, q)
  | node root l r, q =>
    if root.treeDeleted then (node root l r, q)
    else if (node root l r).calcBoxDist point > maxDistSqr then (node root l r, q)
    else
      let left := pushSon root.needPushDownToLeft root l
      let right := pushSon root.needPushDownToRight root r
      let q := if !root.pointDeleted then q.offer kNearest point maxDistSqr root.point else q
      let distLeft := left.calcBoxDist point
      let distRight := right.calcBoxDist point
      if q.heapSize < kNearest ∨ distLeft < q.top.dist ∧ distRight < q.top.dist then
        if distLeft ≤ distRight then
          let first := left.search kNearest point maxDistSqr q
          let second := if first.2.heapSize < kNearest ∨ distRight < first.2.top.dist then
            right.search kNearest point maxDistSqr first.2 else (right, first.2)
          (node (root.pushed l r) first.1 second.1, second.2)
        else
          let first := right.search kNearest point maxDistSqr q
          let second := if first.2.heapSize < kNearest ∨ distLeft < first.2.top.dist then
            left.search kNearest point maxDistSqr first.2 else (left, first.2)
          (node (root.pushed l r) second.1 first.1, second.2)
      else
        let first := if distLeft < q.top.dist then left.search kNearest point maxDistSqr q
          else (left, q)
        let second := if distRight < first.2.top.dist then
          right.search kNearest point maxDistSqr first.2 else (right, first.2)
        (node (root.pushed l r) first.1 second.1, second.2)
termination_by t => t.nodes
decreasing_by all_goals simp only [nodes_pushSon, nodes]; omega

/-- The loop of `Nearest_Search` that empties the heap. -/
def ManualHeap.drain : ℕ → ManualHeap P K → List (PointTypeCmp P K) → List (PointTypeCmp P K)
  | 0, _, found => found
  | n + 1, q, found => drain n q.pop (q.top :: found)

/-- `max_dist * max_dist`. -/
def sqr : WithTop K → WithTop K
  | some x => (x * x : K)
  | none => ⊤

/-- `Nearest_Search`: the tree, `Nearest_Points` and `Point_Distance`. -/
def KdTree.nearestSearch [Inhabited P] (root : KdTree P K) (point : P) (kNearest : ℕ)
    (maxDist : WithTop K) : KdTree P K × List P × List (WithTop K) :=
  let q : ManualHeap P K :=
    { heap := fun _ => ⟨default, ⊤⟩, heapSize := 0, cap := 2 * kNearest }
  let searched := root.search kNearest point (sqr maxDist) q
  let found := searched.2.drain (min kNearest searched.2.heapSize) []
  (searched.1, found.map (·.point), found.map (·.dist))

/-! ### What the search does to the tree -/

section

variable {t : KdTree P K} {point : P} {kNearest : ℕ} {maxDistSqr maxDist : WithTop K}
  {q : ManualHeap P K}

/-- `Search` only pushes marks down. -/
lemma pushedDown_search (t : KdTree P K) (q : ManualHeap P K) :
    KdTree.PushedDown t (t.search kNearest point maxDistSqr q).1 := by
  induction t using KdTree.pushInduction generalizing q with
  | null =>
    rw [KdTree.search]
    exact .refl _
  | node d l r ihl ihr =>
    have hson : ∀ {son : KdTree P K} {q q' : ManualHeap P K} {cond : Prop} [Decidable cond],
        (∀ q, KdTree.PushedDown son (son.search kNearest point maxDistSqr q).1) →
        KdTree.PushedDown son
          (if cond then son.search kNearest point maxDistSqr q else (son, q')).1 := by
      intro son q q' cond _ hpush
      split_ifs
      · exact hpush q
      · exact .refl _
    rw [KdTree.search]
    simp only
    generalize (if !d.pointDeleted then q.offer kNearest point maxDistSqr d.point else q) = q₀
    by_cases htd : d.treeDeleted = true
    · rw [if_pos htd]
      exact .refl _
    rw [if_neg htd]
    by_cases hfar : (KdTree.node d l r).calcBoxDist point > maxDistSqr
    · rw [if_pos hfar]
      exact .refl _
    rw [if_neg hfar]
    by_cases hnear : q₀.heapSize < kNearest ∨
        (KdTree.pushSon d.needPushDownToLeft d l).calcBoxDist point < q₀.top.dist ∧
          (KdTree.pushSon d.needPushDownToRight d r).calcBoxDist point < q₀.top.dist
    · rw [if_pos hnear]
      split
      · exact .node (ihl _) (hson ihr)
      · exact .node (hson ihl) (ihr _)
    · rw [if_neg hnear]
      exact .node (hson ihl) (hson ihr)

lemma samePoints_search (h : t.WellFormed) :
    KdTree.SamePoints t (t.search kNearest point maxDistSqr q).1 :=
  (pushedDown_search t q).samePoints h

lemma samePoints_nearestSearch [Inhabited P] (h : t.WellFormed) (point : P) (kNearest : ℕ)
    (maxDist : WithTop K) :
    KdTree.SamePoints t (t.nearestSearch point kNearest maxDist).1 :=
  samePoints_search h

end

/-! ### The distance to a range -/

section

variable [IsStrictOrderedRing K] {t : KdTree P K} {range : BoxPointType K} {point p : P} {i : Fin 3}

lemma axisDist_le (h : range.Covers p) :
    axisDist range point i ≤ (coord point i - coord p i) * (coord point i - coord p i) := by
  obtain ⟨hmin, hmax⟩ := h
  have hmin := hmin i
  have hmax := hmax i
  unfold axisDist
  split_ifs with hlt hgt hgt
  · exact absurd (hlt.trans_le (hmin.trans hmax)) hgt.not_gt
  · nlinarith
  · nlinarith
  · nlinarith [mul_self_nonneg (coord point i - coord p i)]

/-- No point of a tree is nearer than the range of its root. -/
lemma KdTree.WellFormed.calcBoxDist_le (h : t.WellFormed) (hp : p ∈ t.points) :
    t.calcBoxDist point ≤ (calcDist point p : K) := by
  obtain ⟨range, hrange, hcovers⟩ := h.covers hp
  unfold calcBoxDist
  rw [hrange]
  exact WithTop.coe_le_coe.mpr
    (add_le_add (add_le_add (axisDist_le hcovers) (axisDist_le hcovers)) (axisDist_le hcovers))

end

/-! ### The order of the heap -/

/-- The entry for a point of the tree. -/
def candidate (point p : P) : PointTypeCmp P K := ⟨p, (calcDist point p : K)⟩

/-- Points that are not equally far from `point` differ enough for the comparison. -/
def Separated (point : P) (all : Multiset P) : Prop :=
  ∀ p ∈ all, ∀ q ∈ all, |(calcDist point p : K) - calcDist point q| < 1 / 10 ^ 10 →
    (calcDist point p : K) = calcDist point q

lemma compares_candidate [IsStrictOrderedRing K] {point : P} {all : Multiset P}
    (h : Separated (K := K) point all) :
    BinaryHeap.Compares PointTypeCmp.lt PointTypeCmp.key
      {c : PointTypeCmp P K | ∃ p ∈ all, c = candidate point p} := by
  rintro _ ⟨p, hp, rfl⟩ _ ⟨q, hq, rfl⟩
  have hlt : PointTypeCmp.lt (candidate point p) (candidate point q) ↔
      if |(calcDist point p : K) - calcDist point q| < 1 / 10 ^ 10 then coord p 0 < coord q 0
      else (calcDist point p : K) < calcDist point q := Iff.rfl
  have hkey : (candidate point p).key < (candidate point q).key ↔
      (calcDist point p : K) < calcDist point q ∨
        (calcDist point p : K) = calcDist point q ∧ coord p 0 < coord q 0 := by
    rw [PointTypeCmp.key, PointTypeCmp.key, Prod.Lex.toLex_lt_toLex]
    simp only [candidate, WithTop.coe_lt_coe, WithTop.coe_inj]
  rw [hlt, hkey]
  split_ifs with hclose
  · simp [h p hp q hq hclose]
  · have hne : (calcDist point p : K) ≠ calcDist point q := by
      intro heq
      rw [heq, sub_self, abs_zero] at hclose
      exact hclose (by positivity)
    simp [hne]

/-! ### What the heap holds -/

/-- The heap holds the nearest of the points `seen`, which are from `all`. -/
structure HeapOk (kNearest : ℕ) (point : P) (all seen : Multiset P) (q : ManualHeap P K) :
    Prop where
  ordered : BinaryHeap.Ordered PointTypeCmp.key q.heap q.heapSize
  cap : q.cap = 2 * kNearest
  subset : ∀ p ∈ seen, p ∈ all
  nearest : ∃ best, BinaryHeap.contents q.heap q.heapSize = best.map (candidate point) ∧
    KNearest (fun p => (calcDist point p : K)) kNearest seen best

/-- The points of a tree that the search may return. -/
def within (point : P) (maxDistSqr : WithTop K) (points : Multiset P) : Multiset P :=
  points.filter fun p => ((calcDist point p : K) : WithTop K) ≤ maxDistSqr

section

variable {kNearest : ℕ} {point p : P} {all seen : Multiset P} {q : ManualHeap P K}
  {maxDistSqr : WithTop K} {t : KdTree P K}

lemma HeapOk.heapSize_eq (h : HeapOk kNearest point all seen q) :
    q.heapSize = min kNearest seen.card := by
  obtain ⟨best, hbest, hnearest⟩ := h.nearest
  have hcard := congrArg Multiset.card hbest
  rw [BinaryHeap.card_contents, Multiset.card_map] at hcard
  rw [hcard, hnearest.card]

/-- The root of the heap is the farthest of its points. -/
lemma HeapOk.dist_le_top (h : HeapOk kNearest point all seen q) {c : PointTypeCmp P K}
    (hc : c ∈ BinaryHeap.contents q.heap q.heapSize) : c.dist ≤ q.top.dist := by
  obtain ⟨i, hi, rfl⟩ := BinaryHeap.mem_contents.mp hc
  exact PointTypeCmp.dist_le_of_key_le (h.ordered.le_root hi)

lemma HeapOk.mem_all (h : HeapOk kNearest point all seen q) {c : PointTypeCmp P K}
    (hc : c ∈ BinaryHeap.contents q.heap q.heapSize) : ∃ p ∈ all, c = candidate point p := by
  obtain ⟨best, hbest, hnearest⟩ := h.nearest
  rw [hbest] at hc
  obtain ⟨p, hp, rfl⟩ := Multiset.mem_map.mp hc
  exact ⟨p, h.subset p (hnearest.mem hp), rfl⟩

/-- Points that are not nearer than the root of a full heap may be left out. -/
lemma HeapOk.skip {points : Multiset P} (h : HeapOk kNearest point all seen q)
    (hfull : ¬q.heapSize < kNearest) (hall : ∀ p ∈ points, p ∈ all)
    (hfar : ∀ p ∈ points, q.top.dist ≤ (calcDist point p : K)) :
    HeapOk kNearest point all (seen + points) q := by
  obtain ⟨best, hbest, hnearest⟩ := h.nearest
  refine ⟨h.ordered, h.cap, fun p hp => ?_, best, hbest, hnearest.skip ?_ fun p hp y hy => ?_⟩
  · rcases Multiset.mem_add.mp hp with hp | hp
    · exact h.subset p hp
    · exact hall p hp
  · have hcard := congrArg Multiset.card hbest
    rw [BinaryHeap.card_contents, Multiset.card_map] at hcard
    omega
  · have hmem : candidate point y ∈ BinaryHeap.contents q.heap q.heapSize :=
      hbest ▸ Multiset.mem_map_of_mem _ hy
    exact WithTop.coe_le_coe.mp ((h.dist_le_top hmem).trans (hfar p hp))

lemma within_add (points points' : Multiset P) :
    within point maxDistSqr (points + points') =
      within (K := K) point maxDistSqr points + within point maxDistSqr points' :=
  Multiset.filter_add _ _ _

variable [IsStrictOrderedRing K]

/-- A heap with room takes the point. -/
lemma HeapOk.push (h : HeapOk kNearest point all seen q) (hsep : Separated (K := K) point all)
    (hp : p ∈ all) (hroom : q.heapSize < kNearest) :
    HeapOk kNearest point all (p ::ₘ seen) (q.push (candidate point p)) := by
  obtain ⟨best, hbest, hnearest⟩ := h.nearest
  have hcard := congrArg Multiset.card hbest
  rw [BinaryHeap.card_contents, Multiset.card_map] at hcard
  have hcap : ¬q.heapSize ≥ q.cap := by
    rw [h.cap]
    omega
  obtain ⟨hord, hcont⟩ := BinaryHeap.push_spec (compares_candidate hsep) h.ordered
    (x := candidate point p) ⟨p, hp, rfl⟩ (fun c hc => h.mem_all hc)
  rw [ManualHeap.push, if_neg hcap]
  refine ⟨hord, h.cap, fun x hx => ?_, p ::ₘ best, ?_, hnearest.insert (by omega)⟩
  · rcases Multiset.mem_cons.mp hx with rfl | hx
    · exact hp
    · exact h.subset x hx
  · rw [hcont, hbest, Multiset.map_cons]

/-- A full heap exchanges its root for a nearer point. -/
lemma HeapOk.pop_push (h : HeapOk kNearest point all seen q)
    (hsep : Separated (K := K) point all) (hp : p ∈ all) (hk : 0 < kNearest)
    (hfull : q.heapSize ≥ kNearest) (hlt : ((calcDist point p : K) : WithTop K) < q.top.dist) :
    HeapOk kNearest point all (p ::ₘ seen) (q.pop.push (candidate point p)) := by
  classical
  obtain ⟨best, hbest, hnearest⟩ := h.nearest
  have hsize := h.heapSize_eq
  obtain ⟨n, hn⟩ : ∃ n, q.heapSize = n + 1 := ⟨q.heapSize - 1, by omega⟩
  rw [hn] at hbest
  obtain ⟨hord, hcont⟩ := BinaryHeap.pop_spec (compares_candidate hsep) (hn ▸ h.ordered)
    (fun c hc => h.mem_all (hn ▸ hc))
  have hpop : q.pop = { q with
      heap :=
        BinaryHeap.moveDown PointTypeCmp.lt (q.heap n) n (Function.update q.heap 0 (q.heap n)) 0
      heapSize := n } := by
    rw [ManualHeap.pop, if_neg (by omega), hn, Nat.add_sub_cancel]
  obtain ⟨m, hm, htop, hothers⟩ := (Multiset.map_eq_cons _ _ _ _).mpr (hbest.symm.trans hcont)
  have hbest' := Multiset.cons_erase hm
  obtain ⟨hord', hcont'⟩ := BinaryHeap.push_spec (compares_candidate hsep) hord
    (x := candidate point p) ⟨p, hp, rfl⟩
    (fun c hc => h.mem_all (by rw [hn, hcont]; exact Multiset.mem_cons_of_mem hc))
  have hcap : ¬n ≥ q.cap := by
    rw [h.cap]
    omega
  rw [hpop, ManualHeap.push, if_neg hcap]
  refine ⟨hord', h.cap, fun x hx => ?_, p ::ₘ best.erase m, ?_, ?_⟩
  · rcases Multiset.mem_cons.mp hx with rfl | hx
    · exact hp
    · exact h.subset x hx
  · rw [hcont', ← hothers, Multiset.map_cons]
  · rw [← hbest'] at hnearest
    refine hnearest.replace ?_ (fun y hy => ?_) ?_
    · rw [hnearest.card]
      omega
    · have hmem : candidate point y ∈ BinaryHeap.contents q.heap q.heapSize := by
        rw [hn, hbest]
        exact Multiset.mem_map_of_mem _ (hbest' ▸ hy)
      have hle := h.dist_le_top hmem
      rw [ManualHeap.top, ← htop] at hle
      exact WithTop.coe_le_coe.mp hle
    · rw [ManualHeap.top, ← htop] at hlt
      exact WithTop.coe_lt_coe.mp hlt

/-- The step at a point that is within the maximal distance takes it or leaves it out for good. -/
lemma HeapOk.offer (h : HeapOk kNearest point all seen q) (hsep : Separated (K := K) point all)
    (hk : 0 < kNearest) (hp : p ∈ all) :
    HeapOk kNearest point all (seen + within point maxDistSqr {p})
      (q.offer kNearest point maxDistSqr p) := by
  unfold ManualHeap.offer within
  rw [Multiset.filter_singleton]
  by_cases hmax : ((calcDist point p : K) : WithTop K) ≤ maxDistSqr
  · rw [if_pos hmax, add_comm, Multiset.singleton_add]
    by_cases hroom : q.heapSize < kNearest
    · simp only [hmax, hroom, true_or, and_self, if_true, if_neg (not_le.mpr hroom)]
      exact h.push hsep hp hroom
    · by_cases hlt : ((calcDist point p : K) : WithTop K) < q.top.dist
      · simp only [hmax, hlt, or_true, and_self, if_true, if_pos (not_lt.mp hroom)]
        exact h.pop_push hsep hp hk (not_lt.mp hroom) hlt
      · simp only [hmax, hroom, hlt, or_self, and_false, if_false]
        rw [← Multiset.singleton_add, add_comm]
        refine h.skip hroom (fun x hx => ?_) fun x hx => ?_
        · rwa [Multiset.mem_singleton.mp hx]
        · rw [Multiset.mem_singleton.mp hx]
          exact not_lt.mp hlt
  · simp only [hmax, false_and, if_false]
    rw [Multiset.empty_eq_zero, add_zero]
    exact h

/-- A subtree that is not searched has no point that the heap is missing. -/
lemma HeapOk.prune (h : HeapOk kNearest point all seen q) (ht : t.WellFormed)
    (hall : ∀ p ∈ t.points, p ∈ all) (hfull : ¬q.heapSize < kNearest)
    (hfar : ¬t.calcBoxDist point < q.top.dist) :
    HeapOk kNearest point all (seen + within point maxDistSqr t.points) q := by
  refine h.skip hfull (fun p hp => hall p (Multiset.mem_of_mem_filter hp)) fun p hp => ?_
  exact (not_lt.mp hfar).trans (ht.calcBoxDist_le (Multiset.mem_of_mem_filter hp))

/-- A subtree that is searched when the heap has room or when its range is nearer than the root of
the heap. -/
lemma visit_spec (cond : Prop) [Decidable cond] (ht : t.WellFormed)
    (hall : ∀ p ∈ t.points, p ∈ all) (h : HeapOk kNearest point all seen q)
    (hsearch : ∀ {seen q}, HeapOk kNearest point all seen q →
      HeapOk kNearest point all (seen + within point maxDistSqr t.points)
        (t.search kNearest point maxDistSqr q).2)
    (hcond : ¬cond → ¬q.heapSize < kNearest ∧ ¬t.calcBoxDist point < q.top.dist) :
    HeapOk kNearest point all (seen + within point maxDistSqr t.points)
      (if cond then t.search kNearest point maxDistSqr q else (t, q)).2 := by
  split_ifs with hc
  · exact hsearch h
  · exact h.prune ht hall (hcond hc).1 (hcond hc).2

/-- `Search` brings the nearest points of the tree into the heap. -/
theorem search_spec (hsep : Separated (K := K) point all) (hk : 0 < kNearest) (ht : t.WellFormed)
    (maxDistSqr : WithTop K) (hall : ∀ p ∈ t.points, p ∈ all)
    (h : HeapOk kNearest point all seen q) :
    HeapOk kNearest point all (seen + within point maxDistSqr t.points)
      (t.search kNearest point maxDistSqr q).2 := by
  induction t using KdTree.pushInduction generalizing seen q with
  | null =>
    rw [KdTree.search]
    simpa [within, KdTree.points, KdTree.live] using h
  | node d l r ihl ihr =>
    have hpoints := ht.pushed_points
    obtain ⟨hwl, hwr⟩ := ht.pushed_sons
    rw [KdTree.search]
    by_cases htd : d.treeDeleted = true
    · have hnil : (KdTree.node d l r).points = 0 := by
        rw [KdTree.points, ht.live_of_treeDeleted htd, Multiset.coe_nil]
      rw [if_pos htd, hnil, within, Multiset.filter_zero, add_zero]
      exact h
    rw [if_neg htd]
    by_cases hfar : (KdTree.node d l r).calcBoxDist point > maxDistSqr
    · have hnone : within point maxDistSqr (KdTree.node d l r).points = 0 :=
        Multiset.filter_eq_nil.mpr fun p hp =>
          not_le.mpr (hfar.trans_le (ht.calcBoxDist_le hp))
      rw [if_pos hfar, hnone, add_zero]
      exact h
    rw [if_neg hfar]
    have halll : ∀ p ∈ (KdTree.pushSon d.needPushDownToLeft d l).points, p ∈ all :=
      fun p hp => hall p (by simp [hpoints, hp])
    have hallr : ∀ p ∈ (KdTree.pushSon d.needPushDownToRight d r).points, p ∈ all :=
      fun p hp => hall p (by simp [hpoints, hp])
    have hown : HeapOk kNearest point all (seen + within point maxDistSqr d.ownLive)
        (if !d.pointDeleted then q.offer kNearest point maxDistSqr d.point else q) := by
      cases hpd : d.pointDeleted with
      | false =>
        have hpoint : d.point ∈ all :=
          hall _ (by simp [hpoints, KdTreeNode.ownLive, hpd])
        simpa [KdTreeNode.ownLive, hpd] using h.offer hsep hk hpoint
      | true => simpa [KdTreeNode.ownLive, hpd, within] using h
    simp only
    generalize (if !d.pointDeleted then q.offer kNearest point maxDistSqr d.point else q) = q₀
      at hown ⊢
    rw [hpoints, within_add, within_add, ← add_assoc, ← add_assoc]
    by_cases hnear : q₀.heapSize < kNearest ∨
        (KdTree.pushSon d.needPushDownToLeft d l).calcBoxDist point < q₀.top.dist ∧
          (KdTree.pushSon d.needPushDownToRight d r).calcBoxDist point < q₀.top.dist
    · rw [if_pos hnear]
      by_cases hleft : (KdTree.pushSon d.needPushDownToLeft d l).calcBoxDist point ≤
          (KdTree.pushSon d.needPushDownToRight d r).calcBoxDist point
      · rw [if_pos hleft]
        exact visit_spec _ hwr hallr (ihl hwl halll hown) (ihr hwr hallr) not_or.mp
      · rw [if_neg hleft, add_right_comm]
        exact visit_spec _ hwl halll (ihr hwr hallr hown) (ihl hwl halll) not_or.mp
    · obtain ⟨hfull, -⟩ := not_or.mp hnear
      rw [if_neg hnear]
      have hokl := visit_spec
        ((KdTree.pushSon d.needPushDownToLeft d l).calcBoxDist point < q₀.top.dist)
        hwl halll hown (ihl hwl halll) fun hc => ⟨hfull, hc⟩
      have hfull' := hokl.heapSize_eq
      rw [Multiset.card_add] at hfull'
      rw [hown.heapSize_eq] at hfull
      exact visit_spec _ hwr hallr hokl (ihr hwr hallr) fun hc => ⟨by omega, hc⟩

/-! ### The result -/

/-- Emptying the heap lists its points, the nearest one first. -/
lemma drain_spec (hsep : Separated (K := K) point all) (q : ManualHeap P K)
    (found : List (PointTypeCmp P K))
    (hord : BinaryHeap.Ordered PointTypeCmp.key q.heap q.heapSize)
    (hmem : ∀ c ∈ BinaryHeap.contents q.heap q.heapSize, ∃ p ∈ all, c = candidate point p)
    (hfound : found.Pairwise fun a b => a.dist ≤ b.dist)
    (hle : ∀ c ∈ BinaryHeap.contents q.heap q.heapSize, ∀ a ∈ found, c.dist ≤ a.dist) :
    (q.drain q.heapSize found).Pairwise (fun a b => a.dist ≤ b.dist) ∧
      (q.drain q.heapSize found : Multiset (PointTypeCmp P K)) =
        BinaryHeap.contents q.heap q.heapSize + found := by
  induction hn : q.heapSize generalizing q found with
  | zero => exact ⟨hfound, by simp [ManualHeap.drain, BinaryHeap.contents]⟩
  | succ n ih =>
    rw [hn] at hord hmem hle
    obtain ⟨hord', hcont⟩ := BinaryHeap.pop_spec (compares_candidate hsep) hord hmem
    have hpop : q.pop = { q with
        heap := BinaryHeap.moveDown PointTypeCmp.lt (q.heap n) n
          (Function.update q.heap 0 (q.heap n)) 0
        heapSize := n } := by
      rw [ManualHeap.pop, if_neg (by omega), hn, Nat.add_sub_cancel]
    have htop : q.top ∈ BinaryHeap.contents q.heap (n + 1) := hcont ▸ Multiset.mem_cons_self _ _
    have hsub : ∀ c ∈ BinaryHeap.contents q.pop.heap n,
        c ∈ BinaryHeap.contents q.heap (n + 1) := by
      intro c hc
      rw [hpop] at hc
      exact hcont ▸ Multiset.mem_cons_of_mem hc
    have hsize : q.pop.heapSize = n := by rw [hpop]
    obtain ⟨hsorted, heq⟩ := ih q.pop (q.top :: found)
      (by rw [hsize, hpop]; exact hord') (fun c hc => hmem c (hsub c (hsize ▸ hc)))
      (List.pairwise_cons.mpr ⟨hle _ htop, hfound⟩)
      (fun c hc a ha => by
        rcases List.mem_cons.mp ha with rfl | ha
        · obtain ⟨i, hi, rfl⟩ := BinaryHeap.mem_contents.mp (hsub c (hsize ▸ hc))
          exact PointTypeCmp.dist_le_of_key_le (hord.le_root hi)
        · exact hle c (hsub c (hsize ▸ hc)) a ha) hsize
    refine ⟨hsorted, ?_⟩
    rw [ManualHeap.drain, heq, hcont, hpop, ← Multiset.cons_coe, Multiset.add_cons,
      Multiset.cons_add]
    rfl

/-- `Nearest_Search` returns the nearest points within the maximal distance, the nearest one first,
with their squared distances. -/
theorem nearestSearch_spec [Inhabited P] (ht : t.WellFormed) (maxDist : WithTop K)
    (hk : 0 < kNearest) (hsep : Separated (K := K) point t.points) :
    KdTree.SamePoints t (t.nearestSearch point kNearest maxDist).1 ∧
      (t.nearestSearch point kNearest maxDist).2.2 =
        (t.nearestSearch point kNearest maxDist).2.1.map
          (fun p => ((calcDist point p : K) : WithTop K)) ∧
      (t.nearestSearch point kNearest maxDist).2.2.Pairwise (· ≤ ·) ∧
      KNearest (fun p => (calcDist point p : K)) kNearest (within point (sqr maxDist) t.points)
        (t.nearestSearch point kNearest maxDist).2.1 := by
  have hempty : HeapOk kNearest point t.points 0
      { heap := fun _ => ⟨default, ⊤⟩, heapSize := 0, cap := 2 * kNearest } :=
    ⟨fun j _ hj => absurd hj (Nat.not_lt_zero j), rfl, by simp,
      0, by simp [BinaryHeap.contents], knearest_zero⟩
  have hsame := samePoints_nearestSearch ht point kNearest maxDist
  have hok := search_spec hsep hk ht (sqr maxDist) (fun p hp => hp) hempty
  rw [zero_add] at hok
  unfold KdTree.nearestSearch at hsame ⊢
  simp only at hsame ⊢
  generalize t.search kNearest point (sqr maxDist) _ = searched at hsame hok ⊢
  have hmin : min kNearest searched.2.heapSize = searched.2.heapSize := by
    have := hok.heapSize_eq
    omega
  obtain ⟨hsorted, heq⟩ := drain_spec hsep searched.2 [] hok.ordered (fun c hc => hok.mem_all hc)
    List.Pairwise.nil (by simp)
  obtain ⟨best, hbest, hnearest⟩ := hok.nearest
  rw [hbest, Multiset.coe_nil, add_zero] at heq
  rw [hmin]
  have hpoints : (((searched.2.drain searched.2.heapSize []).map (·.point) : List P) :
      Multiset P) = best := by
    rw [← Multiset.map_coe, heq, Multiset.map_map]
    exact Multiset.map_id best
  refine ⟨hsame, ?_, hsorted.map _ fun _ _ h => h, by rwa [hpoints]⟩
  rw [List.map_map]
  refine List.map_congr_left fun c hc => ?_
  have hmem : c ∈ best.map (candidate point) := heq ▸ Multiset.mem_coe.mpr hc
  obtain ⟨p, -, rfl⟩ := Multiset.mem_map.mp hmem
  rfl

end

end IkdTree
