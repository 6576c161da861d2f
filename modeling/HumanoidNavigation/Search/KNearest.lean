import Mathlib.Data.List.GetD
import Mathlib.Data.Multiset.Filter
import Mathlib.Order.Lattice
import Mathlib.Tactic.Common

/-!
# The `k` nearest of a multiset

`KNearest d k all best` says that `best` are `k` elements of `all`, or all of them when there are
fewer, and that no element left out is nearer. A search that looks at the elements one after the
other keeps this: it takes an element while there is room (`KNearest.insert`), exchanges the
farthest one for a nearer one (`KNearest.replace`) and may leave out what is not nearer than any
that it has (`KNearest.skip`). It then knows whether `k` elements are within a distance
(`KNearest.le_card_iff`).
-/

namespace Search

variable {α D : Type*} [LinearOrder D] {d : α → D} {k : ℕ} {x m : α}
  {all best others : Multiset α}

structure KNearest (d : α → D) (k : ℕ) (all best : Multiset α) : Prop where
  card : best.card = min k all.card
  le : ∃ rest, all = best + rest ∧ ∀ x ∈ rest, ∀ y ∈ best, d y ≤ d x

lemma knearest_zero : KNearest d k 0 0 := by
  refine ⟨by simp, 0, rfl, ?_⟩
  intro x hx
  simp at hx

lemma KNearest.insert (h : KNearest d k all best) (hk : best.card < k) :
    KNearest d k (x ::ₘ all) (x ::ₘ best) := by
  obtain ⟨hcard, rest, rfl, -⟩ := h
  rw [Multiset.card_add] at hcard
  obtain rfl : rest = 0 := Multiset.card_eq_zero.mp (by omega)
  refine ⟨?_, 0, by simp, by simp⟩
  simp only [Multiset.add_zero, Multiset.card_cons, Multiset.card_zero] at hcard ⊢
  omega

lemma KNearest.replace (h : KNearest d k all (m ::ₘ others))
    (hk : k ≤ (m ::ₘ others).card) (hm : ∀ y ∈ m ::ₘ others, d y ≤ d m) (hx : d x < d m) :
    KNearest d k (x ::ₘ all) (x ::ₘ others) := by
  obtain ⟨hcard, rest, rfl, hrest⟩ := h
  refine ⟨?_, m ::ₘ rest, ?_, ?_⟩
  · simp only [Multiset.card_cons, Multiset.card_add] at hcard hk ⊢
    omega
  · simp only [Multiset.cons_add, Multiset.add_cons]
    rw [Multiset.cons_swap]
  · intro z hz y hy
    rcases Multiset.mem_cons.mp hz with rfl | hz
    · rcases Multiset.mem_cons.mp hy with rfl | hy
      · exact hx.le
      · exact hm y (Multiset.mem_cons_of_mem hy)
    · rcases Multiset.mem_cons.mp hy with rfl | hy
      · exact hx.le.trans (hrest z hz m (Multiset.mem_cons_self m others))
      · exact hrest z hz y (Multiset.mem_cons_of_mem hy)

lemma KNearest.skip {xs : Multiset α} (h : KNearest d k all best) (hk : k ≤ best.card)
    (hxs : ∀ x ∈ xs, ∀ y ∈ best, d y ≤ d x) : KNearest d k (all + xs) best := by
  obtain ⟨hcard, rest, rfl, hrest⟩ := h
  refine ⟨?_, rest + xs, Multiset.add_assoc _ _ _, ?_⟩
  · simp only [Multiset.card_add] at hcard ⊢
    omega
  · intro x hx y hy
    rcases Multiset.mem_add.mp hx with hx | hx
    · exact hrest x hx y hy
    · exact hxs x hx y hy

lemma KNearest.mem (h : KNearest d k all best) (hx : x ∈ best) : x ∈ all := by
  obtain ⟨rest, rfl, -⟩ := h.le
  exact Multiset.mem_add.mpr (.inl hx)

/-- The elements of an ascending list are within a distance if its last one is. -/
lemma forall_mem_le_iff {ds : List D} {r r₀ : D} {n : ℕ} (hsorted : ds.Pairwise (· ≤ ·))
    (hlength : ds.length = n + 1) : (∀ x ∈ ds, x ≤ r) ↔ ds.getD n r₀ ≤ r := by
  have hn : n < ds.length := by omega
  rw [List.getD_eq_getElem _ _ hn]
  constructor
  · intro h
    exact h _ (List.getElem_mem hn)
  · intro h x hx
    obtain ⟨i, hi, rfl⟩ := List.getElem_of_mem hx
    rcases Nat.lt_or_ge i n with hin | hin
    · exact (List.pairwise_iff_getElem.mp hsorted i n hi hn hin).trans h
    · obtain rfl : i = n := by omega
      exact h

/-- There are `k` elements within a distance if the `k` nearest are within it. -/
theorem KNearest.le_card_iff {r : D} (h : KNearest d k all best) :
    k ≤ (all.filter (d · ≤ r)).card ↔ k ≤ best.card ∧ ∀ y ∈ best, d y ≤ r := by
  obtain ⟨hcard, rest, rfl, hrest⟩ := h
  constructor
  · intro hk
    have hall := hk.trans (Multiset.card_le_card (Multiset.filter_le _ _))
    refine ⟨by omega, fun y hy => ?_⟩
    by_contra hr
    have hnone : rest.filter (d · ≤ r) = 0 := by
      apply Multiset.filter_eq_nil.mpr
      intro x hx hxr
      exact hr ((hrest x hx y hy).trans hxr)
    have hlt : (best.filter (d · ≤ r)).card < best.card := by
      apply lt_of_le_of_ne (Multiset.card_le_card (Multiset.filter_le _ _))
      intro heq
      have hself := Multiset.eq_of_le_of_card_le (Multiset.filter_le (d · ≤ r) best) heq.ge
      exact hr (Multiset.filter_eq_self.mp hself y hy)
    rw [Multiset.filter_add, hnone, Multiset.add_zero] at hk
    omega
  · rintro ⟨hk, hr⟩
    rw [Multiset.filter_add, Multiset.card_add, Multiset.filter_eq_self.mpr hr]
    omega

end Search
