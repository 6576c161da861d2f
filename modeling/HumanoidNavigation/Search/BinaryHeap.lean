import Mathlib.Data.Finset.Image
import Mathlib.Data.Finset.Range
import Mathlib.Data.Multiset.AddSub
import Mathlib.Logic.Equiv.Basic
import Mathlib.Order.Lattice
import Mathlib.Tactic.Common

/-!
# Binary heaps

A binary heap with its largest entry at the root, in the first `n` places of an array: the parent
of the place `i` is `(i - 1) / 2`. The two sifts move a hole through the array and put an entry
into it at the end, so what the array holds is read with the entry in the hole, as in
`Function.update h i x`.

The comparison need be that of the keys only on a set `S` which the entries are from. The order is
described by `UpOk` and `DownOk`, which say where it may be broken around the hole.
-/

namespace BinaryHeap

variable {α D : Type*}

/-- The entries in the first `n` places. -/
def contents (h : ℕ → α) (n : ℕ) : Multiset α := (Multiset.range n).map h

def parent (i : ℕ) : ℕ := (i - 1) / 2

variable (lt : α → α → Prop) [DecidableRel lt]

/-- Move the hole at `i` up to where `x` belongs and put it there. -/
def floatUp (x : α) (h : ℕ → α) (i : ℕ) : ℕ → α :=
  if 0 < i then
    if lt (h (parent i)) x then floatUp x (Function.update h i (h (parent i))) (parent i)
    else Function.update h i x
  else Function.update h i x
termination_by i
decreasing_by unfold parent; omega

/-- The child that is compared with the entry at the hole, the larger one. -/
def child (h : ℕ → α) (n i : ℕ) : ℕ :=
  if 2 * i + 2 < n ∧ lt (h (2 * i + 1)) (h (2 * i + 2)) then 2 * i + 2 else 2 * i + 1

/-- Move the hole at `i` down to where `x` belongs and put it there. -/
def moveDown (x : α) (n : ℕ) (h : ℕ → α) (i : ℕ) : ℕ → α :=
  if 2 * i + 1 < n then
    if lt x (h (child lt h n i)) then
      moveDown x n (Function.update h i (h (child lt h n i))) (child lt h n i)
    else Function.update h i x
  else Function.update h i x
termination_by n - i
decreasing_by
  unfold child
  split_ifs <;> omega

/-! ### What the array holds -/

section Contents

variable {lt} {h : ℕ → α} {n i j : ℕ} {x : α}

lemma mem_contents : x ∈ contents h n ↔ ∃ j < n, h j = x := by
  simp [contents]

@[simp] lemma card_contents : (contents h n).card = n := by
  simp [contents]

lemma contents_succ : contents h (n + 1) = h n ::ₘ contents h n := by
  simp [contents, Multiset.range_succ]

lemma contents_congr {h' : ℕ → α} (hh : ∀ j < n, h j = h' j) : contents h n = contents h' n :=
  Multiset.map_congr rfl fun j hj => hh j (Multiset.mem_range.mp hj)

/-- Exchanging two places does not change what the array holds. -/
lemma contents_swap (hi : i < n) (hj : j < n) :
    contents (h ∘ Equiv.swap i j) n = contents h n := by
  have hmap : (Finset.range n).map (Equiv.swap i j).toEmbedding = Finset.range n := by
    refine Finset.map_perm fun k hk => ?_
    rcases Equiv.swap_apply_ne_self_iff.mp hk with ⟨-, rfl | rfl⟩
    · exact Finset.mem_coe.mpr (Finset.mem_range.mpr hi)
    · exact Finset.mem_coe.mpr (Finset.mem_range.mpr hj)
  have hrange := congrArg Finset.val hmap
  rw [Finset.map_val, Finset.range_val] at hrange
  calc contents (h ∘ Equiv.swap i j) n
      = ((Multiset.range n).map (Equiv.swap i j).toEmbedding).map h := by
        rw [Multiset.map_map]
        rfl
    _ = contents h n := by rw [hrange, contents]

/-- Moving the hole from `i` to `j` exchanges the two places. -/
lemma update_move (hij : i ≠ j) :
    Function.update (Function.update h i (h j)) j x =
      Function.update h i x ∘ Equiv.swap i j := by
  funext k
  by_cases hkj : k = j
  · simp [hkj]
  · by_cases hki : k = i
    · simp [hki, hij, hij.symm]
    · simp [hkj, hki, Equiv.swap_apply_of_ne_of_ne hki hkj]

lemma contents_move (hij : i ≠ j) (hi : i < n) (hj : j < n) :
    contents (Function.update (Function.update h i (h j)) j x) n =
      contents (Function.update h i x) n := by
  rw [update_move hij, contents_swap hi hj]

end Contents

/-! ### The order -/

section Order

variable [LinearOrder D] {lt} {key : α → D} {S : Set α} {h : ℕ → α} {n i : ℕ} {x : α}

/-- On `S` the comparison is that of the keys. -/
def Compares (lt : α → α → Prop) (key : α → D) (S : Set α) : Prop :=
  ∀ ⦃a⦄, a ∈ S → ∀ ⦃b⦄, b ∈ S → (lt a b ↔ key a < key b)

/-- No entry has a larger key than its parent. -/
def Ordered (key : α → D) (h : ℕ → α) (n : ℕ) : Prop :=
  ∀ j, 0 < j → j < n → key (h j) ≤ key (h (parent j))

/-- The order may be broken between `i` and its parent. -/
structure UpOk (key : α → D) (h : ℕ → α) (n i : ℕ) : Prop where
  elsewhere : ∀ j, 0 < j → j < n → j ≠ i → key (h j) ≤ key (h (parent j))
  across : 0 < i → ∀ j, 0 < j → j < n → parent j = i → key (h j) ≤ key (h (parent i))

/-- The order may be broken between `i` and its children. -/
structure DownOk (key : α → D) (h : ℕ → α) (n i : ℕ) : Prop where
  elsewhere : ∀ j, 0 < j → j < n → parent j ≠ i → key (h j) ≤ key (h (parent j))
  across : 0 < i → ∀ j, 0 < j → j < n → parent j = i → key (h j) ≤ key (h (parent i))

lemma parent_lt (hi : 0 < i) : parent i < i := by
  unfold parent
  omega

/-- The largest key is at the root. -/
lemma Ordered.le_root (ho : Ordered key h n) (hi : i < n) : key (h i) ≤ key (h 0) := by
  induction i using Nat.strong_induction_on with
  | _ i ih =>
    rcases Nat.eq_zero_or_pos i with rfl | hpos
    · exact le_rfl
    · have hlt := parent_lt hpos
      exact (ho i hpos hi).trans (ih _ hlt (hlt.trans hi))

/-- Exchanging an entry with its parent, which has a smaller key, moves the break up. -/
lemma UpOk.swap (ho : UpOk key h n i) (hi : 0 < i) (hin : i < n)
    (hlt : key (h (parent i)) < key (h i)) :
    UpOk key (h ∘ Equiv.swap i (parent i)) n (parent i) := by
  have hpi := parent_lt hi
  refine ⟨fun j hj hjn hjp => ?_, fun hp j hj hjn hjp => ?_⟩
  · by_cases hji : j = i
    · subst hji
      simpa using hlt.le
    · rw [Function.comp_apply, Function.comp_apply, Equiv.swap_apply_of_ne_of_ne hji hjp]
      by_cases hpj : parent j = i
      · rw [hpj, Equiv.swap_apply_left]
        exact ho.across hi j hj hjn hpj
      · by_cases hpp : parent j = parent i
        · rw [hpp, Equiv.swap_apply_right]
          exact (hpp ▸ ho.elsewhere j hj hjn hji).trans hlt.le
        · rw [Equiv.swap_apply_of_ne_of_ne hpj hpp]
          exact ho.elsewhere j hj hjn hji
  · have hpp := parent_lt hp
    have hgrand : key (h (parent i)) ≤ key (h (parent (parent i))) :=
      ho.elsewhere _ hp (hpi.trans hin) hpi.ne
    rw [Function.comp_apply, Function.comp_apply,
      Equiv.swap_apply_of_ne_of_ne (hpp.trans hpi).ne hpp.ne]
    by_cases hji : j = i
    · subst hji
      rw [Equiv.swap_apply_left]
      exact hgrand
    · have hjp' : j ≠ parent i := fun h => (parent_lt hj).ne (hjp.trans h.symm)
      rw [Equiv.swap_apply_of_ne_of_ne hji hjp']
      exact (hjp ▸ ho.elsewhere j hj hjn hji).trans hgrand

lemma UpOk.stop (ho : UpOk key (Function.update h i x) n i)
    (hstop : 0 < i → key x ≤ key (h (parent i))) : Ordered key (Function.update h i x) n := by
  intro j hj hjn
  by_cases hji : j = i
  · subst hji
    have hne : parent j ≠ j := (parent_lt hj).ne
    simpa [hne] using hstop hj
  · exact ho.elsewhere j hj hjn hji

/-- Exchanging an entry with its larger child, which has a larger key, moves the break down. -/
lemma DownOk.swap {c : ℕ} (ho : DownOk key h n i) (hin : i < n) (hc : 0 < c) (hcn : c < n)
    (hci : parent c = i) (hlt : key (h i) < key (h c))
    (hmax : ∀ j, 0 < j → j < n → parent j = i → key (h j) ≤ key (h c)) :
    DownOk key (h ∘ Equiv.swap i c) n c := by
  have hic : i < c := hci ▸ parent_lt hc
  refine ⟨fun j hj hjn hjp => ?_, fun _ j hj hjn hjp => ?_⟩
  · by_cases hjc : j = c
    · subst hjc
      rw [Function.comp_apply, Function.comp_apply, hci, Equiv.swap_apply_left,
        Equiv.swap_apply_right]
      exact hlt.le
    · by_cases hji : j = i
      · subst hji
        have hp := parent_lt hj
        rw [Function.comp_apply, Function.comp_apply, Equiv.swap_apply_left,
          Equiv.swap_apply_of_ne_of_ne hp.ne hjp]
        exact ho.across hj c hc hcn hci
      · rw [Function.comp_apply, Function.comp_apply, Equiv.swap_apply_of_ne_of_ne hji hjc]
        by_cases hpi : parent j = i
        · rw [hpi, Equiv.swap_apply_left]
          exact hmax j hj hjn hpi
        · rw [Equiv.swap_apply_of_ne_of_ne hpi hjp]
          exact ho.elsewhere j hj hjn hpi
  · have hjc : c < j := hjp ▸ parent_lt hj
    rw [Function.comp_apply, Function.comp_apply, hci, Equiv.swap_apply_left,
      Equiv.swap_apply_of_ne_of_ne (hic.trans hjc).ne' hjc.ne']
    have hle := ho.elsewhere j hj hjn (hjp.trans_ne hic.ne')
    rwa [hjp] at hle

end Order

/-! ### The sifts -/

section Sift

variable [LinearOrder D] {lt} {key : α → D} {S : Set α} {h : ℕ → α} {n i : ℕ} {x : α}

lemma mem_of_contents (hS : ∀ a ∈ contents h n, a ∈ S) (hi : i < n) : h i ∈ S :=
  hS _ (mem_contents.mpr ⟨i, hi, rfl⟩)

/-- `floatUp` mends the order above the hole. -/
theorem floatUp_spec (hcmp : Compares lt key S) (hi : i < n)
    (hS : ∀ a ∈ contents (Function.update h i x) n, a ∈ S)
    (ho : UpOk key (Function.update h i x) n i) :
    Ordered key (floatUp lt x h i) n ∧
      contents (floatUp lt x h i) n = contents (Function.update h i x) n := by
  induction i using Nat.strong_induction_on generalizing h with
  | _ i ih =>
    rw [floatUp]
    split_ifs with hpos hlt
    · have hp := parent_lt hpos
      have hx : x ∈ S := by simpa using mem_of_contents hS hi
      have hpS : h (parent i) ∈ S := by simpa [hp.ne] using mem_of_contents hS (hp.trans hi)
      have hkey := (hcmp hpS hx).mp hlt
      have hmove := contents_move (h := h) (x := x) hp.ne' hi (hp.trans hi)
      have hup : UpOk key
          (Function.update (Function.update h i (h (parent i))) (parent i) x) n (parent i) := by
        rw [update_move hp.ne']
        exact ho.swap hpos hi (by simpa [hp.ne] using hkey)
      obtain ⟨hord, hcont⟩ := ih _ hp (hp.trans hi) (by rwa [hmove]) hup
      exact ⟨hord, hcont.trans hmove⟩
    · refine ⟨ho.stop fun _ => ?_, rfl⟩
      have hp := parent_lt hpos
      have hx : x ∈ S := by simpa using mem_of_contents hS hi
      have hpS : h (parent i) ∈ S := by simpa [hp.ne] using mem_of_contents hS (hp.trans hi)
      exact not_lt.mp fun hkey => hlt ((hcmp hpS hx).mpr hkey)
    · exact ⟨ho.stop fun h => absurd h hpos, rfl⟩

variable (lt h) in
/-- The place that `child` chooses is a child. -/
lemma child_spec (hi : 2 * i + 1 < n) :
    i < child lt h n i ∧ child lt h n i < n ∧ parent (child lt h n i) = i := by
  unfold child parent
  split_ifs with hlt <;> omega

/-- The place that `child` chooses has the larger entry. -/
lemma le_child (hcmp : Compares lt key S) (hS : ∀ a ∈ contents (Function.update h i x) n, a ∈ S)
    (hi : 2 * i + 1 < n) (j : ℕ) (hj : 0 < j) (hjn : j < n) (hji : parent j = i) :
    key (h j) ≤ key (h (child lt h n i)) := by
  have hmem : ∀ k, k ≠ i → k < n → h k ∈ S := fun k hk hkn => by
    simpa [hk] using mem_of_contents hS hkn
  have hor : j = 2 * i + 1 ∨ j = 2 * i + 2 := by
    unfold parent at hji
    omega
  unfold child
  split_ifs with hlt
  · have hle := (hcmp (hmem _ (by omega) hi) (hmem _ (by omega) hlt.1)).mp hlt.2
    rcases hor with rfl | rfl
    · exact hle.le
    · exact le_rfl
  · rcases hor with rfl | rfl
    · exact le_rfl
    · refine not_lt.mp fun hkey => hlt ⟨hjn, ?_⟩
      exact (hcmp (hmem _ (by omega) hi) (hmem _ (by omega) hjn)).mpr hkey

/-- A hole whose children are not larger than the entry. -/
lemma DownOk.stop (ho : DownOk key (Function.update h i x) n i)
    (hstop : ∀ j, 0 < j → j < n → parent j = i → key (h j) ≤ key x) :
    Ordered key (Function.update h i x) n := by
  intro j hj hjn
  by_cases hji : parent j = i
  · have hne : j ≠ i := fun h => (parent_lt hj).ne (hji.trans h.symm)
    simpa [hji, hne] using hstop j hj hjn hji
  · exact ho.elsewhere j hj hjn hji

/-- `moveDown` mends the order below the hole. -/
theorem moveDown_spec (hcmp : Compares lt key S) (hi : i < n)
    (hS : ∀ a ∈ contents (Function.update h i x) n, a ∈ S)
    (ho : DownOk key (Function.update h i x) n i) :
    Ordered key (moveDown lt x n h i) n ∧
      contents (moveDown lt x n h i) n = contents (Function.update h i x) n := by
  induction hm : n - i using Nat.strong_induction_on generalizing h i with
  | _ m ih =>
    have hx : x ∈ S := by simpa using mem_of_contents hS hi
    rw [moveDown]
    split_ifs with hl hlt
    · obtain ⟨hic, hcn, hci⟩ := child_spec lt h hl
      set c := child lt h n i with hc
      have hcS : h c ∈ S := by simpa [hic.ne'] using mem_of_contents hS hcn
      have hkey := (hcmp hx hcS).mp hlt
      have hmove := contents_move (h := h) (x := x) hic.ne hi hcn
      have hdown : DownOk key (Function.update (Function.update h i (h c)) c x) n c := by
        rw [update_move hic.ne]
        refine ho.swap hi (Nat.zero_lt_of_lt hic) hcn hci (by simpa [hic.ne'] using hkey) ?_
        intro j hj hjn hji
        have hne : j ≠ i := fun h => (parent_lt hj).ne (hji.trans h.symm)
        simpa [hne, hic.ne'] using le_child hcmp hS hl j hj hjn hji
      obtain ⟨hord, hcont⟩ := ih (n - c) (by omega) hcn (by rwa [hmove]) hdown rfl
      exact ⟨hord, hcont.trans hmove⟩
    · refine ⟨ho.stop fun j hj hjn hji => ?_, rfl⟩
      obtain ⟨hic, hcn, -⟩ := child_spec lt h hl
      have hcS : h (child lt h n i) ∈ S := by simpa [hic.ne'] using mem_of_contents hS hcn
      exact (le_child hcmp hS hl j hj hjn hji).trans
        (not_lt.mp fun hkey => hlt ((hcmp hx hcS).mpr hkey))
    · refine ⟨ho.stop fun j hj hjn hji => ?_, rfl⟩
      unfold parent at hji
      omega

/-! ### Adding an entry and taking the root away -/

/-- Put `x` at the end and move it up. -/
theorem push_spec (hcmp : Compares lt key S) (ho : Ordered key h n) (hx : x ∈ S)
    (hS : ∀ a ∈ contents h n, a ∈ S) :
    Ordered key (floatUp lt x (Function.update h n x) n) (n + 1) ∧
      contents (floatUp lt x (Function.update h n x) n) (n + 1) = x ::ₘ contents h n := by
  have hlast : contents (Function.update (Function.update h n x) n x) (n + 1) =
      x ::ₘ contents h n := by
    rw [Function.update_idem, contents_succ, Function.update_self]
    refine congrArg _ (contents_congr fun j hj => ?_)
    rw [Function.update_of_ne hj.ne]
  have hup : UpOk key (Function.update (Function.update h n x) n x) (n + 1) n := by
    rw [Function.update_idem]
    refine ⟨fun j hj hjn hne => ?_, fun _ j hj hjn hjp => ?_⟩
    · have hp := parent_lt hj
      rw [Function.update_of_ne hne, Function.update_of_ne (by omega)]
      exact ho j hj (by omega)
    · have hp := parent_lt hj
      omega
  obtain ⟨hord, hcont⟩ := floatUp_spec hcmp (Nat.lt_succ_self n)
    (fun a ha => by
      rw [hlast] at ha
      rcases Multiset.mem_cons.mp ha with rfl | ha
      · exact hx
      · exact hS a ha) hup
  exact ⟨hord, hcont.trans hlast⟩

/-- Put the last entry in the place of the root and move it down. -/
theorem pop_spec (hcmp : Compares lt key S) (ho : Ordered key h (n + 1))
    (hS : ∀ a ∈ contents h (n + 1), a ∈ S) :
    Ordered key (moveDown lt (h n) n (Function.update h 0 (h n)) 0) n ∧
      contents h (n + 1) =
        h 0 ::ₘ contents (moveDown lt (h n) n (Function.update h 0 (h n)) 0) n := by
  have hsplit : contents h (n + 1) = h 0 ::ₘ contents (Function.update h 0 (h n)) n := by
    rw [← contents_swap (Nat.zero_lt_succ n) (Nat.lt_succ_self n), contents_succ]
    congr 1
    · simp
    · refine contents_congr fun j hj => ?_
      by_cases hj0 : j = 0
      · simp [hj0]
      · simp [hj0, Equiv.swap_apply_of_ne_of_ne hj0 hj.ne]
  rcases Nat.eq_zero_or_pos n with rfl | hpos
  · exact ⟨fun j _ hj => absurd hj (Nat.not_lt_zero j), hsplit⟩
  · have hdown : DownOk key (Function.update (Function.update h 0 (h n)) 0 (h n)) n 0 := by
      rw [Function.update_idem]
      refine ⟨fun j hj hjn hp => ?_, fun h => absurd h (Nat.lt_irrefl 0)⟩
      rw [Function.update_of_ne hj.ne', Function.update_of_ne hp]
      exact ho j hj (hjn.trans (Nat.lt_succ_self n))
    obtain ⟨hord, hcont⟩ := moveDown_spec hcmp hpos
      (fun a ha => by
        rw [Function.update_idem] at ha
        exact hS a (hsplit ▸ Multiset.mem_cons_of_mem ha)) hdown
    rw [Function.update_idem] at hcont
    exact ⟨hord, by rw [hcont, hsplit]⟩

end Sift

end BinaryHeap
