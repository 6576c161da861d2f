import Mathlib.Data.List.Pairwise
import Mathlib.Data.Option.Basic
import Mathlib.Tactic.Common

/-!
# Outboxes with room for one

An outbox hands items on. An item is handed on at once or waits; at most one item waits, and a
newer one replaces it. `Outbox.all` lists what was handed on and what waits, in the order in
which it leaves. A relation that holds between every item of that list and the later ones
survives each action under the condition of `Outbox.pairwise_apply`: with an order this says
that nothing overtakes, with inequality that nothing is handed on twice.
-/

variable {α : Type*}

structure Outbox (α : Type*) where
  sent : List α := []
  waiting : Option α := none

namespace Outbox

inductive Action (α : Type*) where
  | idle
  /-- hand an item on, past the one that waits -/
  | send (a : α)
  /-- let an item wait, in place of the one that waits -/
  | enqueue (a : α)
  /-- hand on the item that waits -/
  | dispatch
  /-- drop the item that waits, if there is one -/
  | discard

/-- Perform one action; `none` when there is nothing to dispatch. -/
def apply (o : Outbox α) : Action α → Option (Outbox α)
  | .idle => some o
  | .send a => some { o with sent := o.sent ++ [a] }
  | .enqueue a => some { o with waiting := some a }
  | .dispatch => o.waiting.map fun a => ⟨o.sent ++ [a], none⟩
  | .discard => some { o with waiting := none }

/-- The items that were handed on and the one that waits. -/
def all (o : Outbox α) : List α := o.sent ++ o.waiting.toList

/-- The item that an action brings in. -/
def Action.item : Action α → Option α
  | send a | enqueue a => some a
  | idle | dispatch | discard => none

variable {o o' : Outbox α} {action : Action α} {a b : α} {R : α → α → Prop}

lemma mem_all : a ∈ o.all ↔ a ∈ o.sent ∨ o.waiting = some a := by simp [all]

/-- Nothing comes from nowhere. -/
lemma mem_all_of_apply (h : o.apply action = some o') (ha : a ∈ o'.all) :
    a ∈ o.all ∨ action.item = some a := by
  rw [mem_all] at ha ⊢
  cases action with
  | idle =>
    obtain rfl := Option.some.inj h
    exact Or.inl ha
  | send b =>
    obtain rfl := Option.some.inj h
    rcases ha with ha | ha
    · rcases List.mem_append.mp ha with ha | ha
      · exact Or.inl (Or.inl ha)
      · rw [List.mem_singleton.mp ha]
        exact Or.inr rfl
    · exact Or.inl (Or.inr ha)
  | enqueue b =>
    obtain rfl := Option.some.inj h
    rcases ha with ha | ha
    · exact Or.inl (Or.inl ha)
    · exact Or.inr ha
  | dispatch =>
    obtain ⟨b, hb, rfl⟩ := Option.map_eq_some_iff.mp h
    rcases ha with ha | ha
    · rcases List.mem_append.mp ha with ha | ha
      · exact Or.inl (Or.inl ha)
      · rw [List.mem_singleton.mp ha]
        exact Or.inl (Or.inr hb)
    · cases ha
  | discard =>
    obtain rfl := Option.some.inj h
    rcases ha with ha | ha
    · exact Or.inl (Or.inl ha)
    · cases ha

/-- What was handed on stays so, and what waits is handed on, replaced by a newer item or
dropped. -/
lemma mem_of_apply (h : o.apply action = some o') (ha : a ∈ o.all) :
    a ∈ o'.all ∨ o.waiting = some a ∧
      ((∃ b, action = .enqueue b ∧ o'.waiting = some b) ∨
        action = .discard ∧ o'.waiting = none) := by
  rw [mem_all] at ha ⊢
  cases action with
  | idle =>
    obtain rfl := Option.some.inj h
    exact Or.inl ha
  | send b =>
    obtain rfl := Option.some.inj h
    exact Or.inl (ha.imp_left (List.mem_append_left _))
  | enqueue b =>
    obtain rfl := Option.some.inj h
    rcases ha with ha | ha
    · exact Or.inl (Or.inl ha)
    · exact Or.inr ⟨ha, Or.inl ⟨b, rfl, rfl⟩⟩
  | dispatch =>
    obtain ⟨b, hb, rfl⟩ := Option.map_eq_some_iff.mp h
    rcases ha with ha | ha
    · exact Or.inl (Or.inl (List.mem_append_left _ ha))
    · obtain rfl := Option.some.inj (hb.symm.trans ha)
      exact Or.inl (Or.inl (List.mem_append_right _ (by simp)))
  | discard =>
    obtain rfl := Option.some.inj h
    rcases ha with ha | ha
    · exact Or.inl (Or.inl ha)
    · exact Or.inr ⟨ha, Or.inr ⟨rfl, rfl⟩⟩

/-- A new item is handed on or waits. -/
lemma item_mem_all (h : o.apply action = some o') (ha : action.item = some a) : a ∈ o'.all := by
  rw [mem_all]
  cases action with
  | send b =>
    obtain rfl := Option.some.inj h
    obtain rfl := Option.some.inj ha
    exact Or.inl (by simp)
  | enqueue b =>
    obtain rfl := Option.some.inj h
    exact Or.inr ha
  | idle | dispatch | discard => cases ha

/-- A relation between the items and the later ones survives an action if it holds between the
items and the new one, and between a new item that is sent and the one that waits. -/
theorem pairwise_apply (h : o.apply action = some o') (ho : o.all.Pairwise R)
    (hnew : ∀ a, action.item = some a → ∀ b ∈ o.all, R b a)
    (hwait : ∀ a, action = .send a → ∀ b, o.waiting = some b → R a b) : o'.all.Pairwise R := by
  cases action with
  | idle =>
    obtain rfl := Option.some.inj h
    exact ho
  | send a =>
    obtain rfl := Option.some.inj h
    have hperm : (o.sent ++ [a] ++ o.waiting.toList).Pairwise R := by
      rw [List.append_assoc, List.pairwise_append]
      obtain ⟨hs, hw, hsw⟩ := List.pairwise_append.mp ho
      refine ⟨hs, ?_, ?_⟩
      · refine List.pairwise_cons.mpr ⟨fun b hb => hwait a rfl b ?_, hw⟩
        simpa using hb
      · intro b hb c hc
        rcases List.mem_cons.mp hc with rfl | hc
        · exact hnew c rfl b (List.mem_append_left _ hb)
        · exact hsw b hb c hc
    exact hperm
  | enqueue a =>
    obtain rfl := Option.some.inj h
    obtain ⟨hs, -, -⟩ := List.pairwise_append.mp ho
    refine List.pairwise_append.mpr ⟨hs, List.pairwise_singleton R a, fun b hb c hc => ?_⟩
    obtain rfl := List.mem_singleton.mp hc
    exact hnew c rfl b (List.mem_append_left _ hb)
  | dispatch =>
    obtain ⟨b, hb, rfl⟩ := Option.map_eq_some_iff.mp h
    simpa [all, hb] using ho
  | discard =>
    obtain rfl := Option.some.inj h
    simpa [all] using (List.pairwise_append.mp ho).1

end Outbox
