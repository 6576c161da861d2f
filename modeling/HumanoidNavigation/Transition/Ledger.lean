import Mathlib.Data.List.Basic
import Mathlib.Order.Nat
import Mathlib.Tactic.Common

/-!
# Ledgers

A ledger is a list of entries that grows at its end and whose entries are updated in place, so
that a position in it is a name for good. `At p l i` states that the entry number `i` is there
and satisfies `p`. The lemmas below say what the two operations do to such a statement.
-/

namespace Ledger

variable {α : Type*} {p q : α → Prop} {f : α → α} {l : List α} {a : α} {i j : ℕ}

/-- The entry number `i` of `l` satisfies `p`. -/
def At (p : α → Prop) (l : List α) (i : ℕ) : Prop := ∃ a, l[i]? = some a ∧ p a

instance [DecidablePred p] : Decidable (At p l i) :=
  match h : l[i]? with
  | some a => decidable_of_iff (p a) (by simp [At, h])
  | none => .isFalse (by simp [At, h])

@[simp] lemma not_at_nil : ¬At p [] i := by simp [At]

lemma at_of_getElem? (h : l[i]? = some a) : At p l i ↔ p a := by simp [At, h]

lemma At.lt (h : At p l i) : i < l.length := by
  obtain ⟨a, ha, -⟩ := h
  exact (List.getElem?_eq_some_iff.mp ha).1

lemma At.imp (h : At p l i) (hpq : ∀ a, p a → q a) : At q l i := by
  obtain ⟨a, ha, hp⟩ := h
  exact ⟨a, ha, hpq a hp⟩

lemma At.and (hp : At p l i) (hq : At q l i) : At (fun a => p a ∧ q a) l i := by
  obtain ⟨a, ha, hpa⟩ := hp
  exact ⟨a, ha, hpa, (at_of_getElem? ha).mp hq⟩

/-- Contradictory statements about one entry. -/
lemma At.elim (hp : At p l i) (hq : At q l i) (h : ∀ a, p a → ¬q a) : False := by
  obtain ⟨a, -, hpa, hqa⟩ := hp.and hq
  exact h a hpa hqa

/-! ### Growing -/

/-- A new entry leaves the old ones as they are. -/
lemma at_concat : At p (l ++ [a]) i ↔ At p l i ∨ i = l.length ∧ p a := by
  rcases lt_trichotomy i l.length with hi | rfl | hi
  · simp [At, List.getElem?_append_left hi, hi.ne]
  · simp [At]
  · have h₁ : (l ++ [a])[i]? = none := List.getElem?_eq_none (by simpa using Nat.succ_le_of_lt hi)
    have h₂ : l[i]? = none := List.getElem?_eq_none hi.le
    simp [At, h₁, h₂, hi.ne']

lemma at_concat_length : At p (l ++ [a]) l.length ↔ p a := by simp [At]

/-! ### Updating -/

lemma at_modify_self : At p (l.modify i f) i ↔ At (fun a => p (f a)) l i := by
  simp [At]

lemma at_modify_of_ne (h : j ≠ i) : At p (l.modify j f) i ↔ At p l i := by
  simp [At, h]

/-- An update that does not matter to `p`. -/
lemma at_modify_of_iff (h : ∀ a, p (f a) ↔ p a) : At p (l.modify j f) i ↔ At p l i := by
  rcases eq_or_ne j i with rfl | hji
  · simp only [at_modify_self, h]
  · exact at_modify_of_ne hji

/-- An update after which no entry satisfies `p`. -/
lemma at_modify_of_not (h : ∀ a, ¬p (f a)) : At p (l.modify j f) i ↔ j ≠ i ∧ At p l i := by
  rcases eq_or_ne j i with rfl | hji
  · simp [At, h]
  · simp [at_modify_of_ne hji, hji]

/-- An update that keeps `p`. -/
lemma At.modify (h : At p l i) (hf : ∀ a, p a → p (f a)) : At p (l.modify j f) i := by
  rcases eq_or_ne j i with rfl | hji
  · exact at_modify_self.mpr (h.imp hf)
  · exact (at_modify_of_ne hji).mpr h

/-- Where an entry comes from when the ledger has grown. -/
lemma getElem?_concat_cases {b : α} (h : (l ++ [a])[i]? = some b) :
    l[i]? = some b ∨ i = l.length ∧ b = a := by
  rcases lt_trichotomy i l.length with hi | rfl | hi
  · exact Or.inl (by rwa [List.getElem?_append_left hi] at h)
  · exact Or.inr ⟨rfl, by simpa using h.symm⟩
  · have := (List.getElem?_eq_some_iff.mp h).1
    simp at this
    omega

/-- Where an entry comes from when one entry was updated. -/
lemma getElem?_modify_cases {b : α} (h : (l.modify j f)[i]? = some b) :
    ∃ a, l[i]? = some a ∧ (i = j ∧ b = f a ∨ i ≠ j ∧ b = a) := by
  rcases eq_or_ne j i with rfl | hji
  · obtain ⟨a, ha, rfl⟩ := Option.map_eq_some_iff.mp (by simpa using h)
    exact ⟨a, ha, Or.inl ⟨rfl, rfl⟩⟩
  · exact ⟨b, by simpa [hji] using h, Or.inr ⟨hji.symm, rfl⟩⟩

/-! ### Updating several entries -/

/-- The entries with the numbers `is` are updated. -/
def modifyAll (f : α → α) (l : List α) (is : List ℕ) : List α :=
  is.foldl (fun l i => l.modify i f) l

variable {is : List ℕ}

@[simp] lemma modifyAll_nil : modifyAll f l [] = l := rfl

@[simp] lemma modifyAll_cons : modifyAll f l (j :: is) = modifyAll f (l.modify j f) is := rfl

@[simp] lemma length_modifyAll : (modifyAll f l is).length = l.length := by
  induction is generalizing l with
  | nil => rfl
  | cons j is ih => rw [modifyAll_cons, ih, List.length_modify]

/-- Where an entry comes from when entries were updated. -/
lemma getElem?_modifyAll_cases {b : α} (hf : ∀ a, f (f a) = f a)
    (h : (modifyAll f l is)[i]? = some b) :
    ∃ a, l[i]? = some a ∧ (i ∈ is ∧ b = f a ∨ b = a) := by
  induction is generalizing l with
  | nil => exact ⟨b, h, Or.inr rfl⟩
  | cons j is ih =>
    obtain ⟨a, ha, hb⟩ := ih h
    obtain ⟨c, hc, ⟨rfl, rfl⟩ | ⟨-, rfl⟩⟩ := getElem?_modify_cases ha
    · refine ⟨c, hc, Or.inl ⟨by simp, ?_⟩⟩
      rcases hb with ⟨-, rfl⟩ | rfl
      · exact hf c
      · rfl
    · refine ⟨_, hc, hb.imp_left fun h => ⟨List.mem_cons_of_mem j h.1, h.2⟩⟩

lemma At.modifyAll (h : At p l i) (hf : ∀ a, p a → p (f a)) : At p (modifyAll f l is) i := by
  induction is generalizing l with
  | nil => exact h
  | cons j is ih => exact ih (h.modify hf)

/-- Updated entries satisfy what the update establishes and keeps. -/
lemma at_modifyAll_of_mem (hi : i ∈ is) (hlt : i < l.length) (hf : ∀ a, p (f a)) :
    At p (Ledger.modifyAll f l is) i := by
  induction is generalizing l with
  | nil => simp at hi
  | cons j is ih =>
    rcases List.mem_cons.mp hi with rfl | hi
    · rw [modifyAll_cons]
      refine At.modifyAll ?_ fun a _ => hf a
      exact at_modify_self.mpr ⟨l[i], List.getElem?_eq_getElem hlt, hf _⟩
    · exact ih hi (by simpa using hlt)

end Ledger
