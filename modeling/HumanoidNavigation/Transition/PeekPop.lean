import Mathlib.Data.List.Sort
import Mathlib.Order.Basic
import Mathlib.Tactic.Common

/-!
# Queues that are read in two phases

A consumer first peeks at the front of a queue and stages the item, and later delivers the staged
item and pops the front. A producer appends items and may first remove some of the oldest ones,
also between the two phases.

Items are numbered in the order in which they are received. `Inv` holds in any case: the staged
item is delivered once and in order. `Intact` says that the staged item is still in front; while it
holds, the item that is popped is the one that is delivered, and no item disappears unless the
producer removed it (`Faithful`). It is lost exactly when the producer removes items while one is
staged (`intact_receive_iff`).
-/

variable {α : Type*}

structure PeekPop (α : Type*) where
  queue : List α := []
  staged : Option α := none
  /-- all items received, removed by the producer, popped and delivered so far -/
  received : List α := []
  removed : List α := []
  popped : List α := []
  delivered : List α := []

namespace PeekPop

inductive Action (α : Type*) where
  | idle
  /-- remove the `k` oldest items and append `a` -/
  | receive (k : ℕ) (a : α)
  /-- stage the front, unless an item is staged -/
  | stage
  /-- deliver the staged item and pop the front -/
  | deliver

/-- Perform one action; `none` when there is nothing to stage, to deliver or to pop. -/
def apply (m : PeekPop α) : Action α → Option (PeekPop α)
  | .idle => some m
  | .receive k a => some
    { m with
      queue := m.queue.drop k ++ [a]
      received := m.received ++ [a]
      removed := m.removed ++ m.queue.take k }
  | .stage =>
    match m.staged with
    | some _ => some m
    | none => m.queue.head?.map fun a => { m with staged := some a }
  | .deliver =>
    match m.staged, m.queue with
    | some a, b :: q => some
      { m with
        queue := q
        staged := none
        popped := m.popped ++ [b]
        delivered := m.delivered ++ [a] }
    | _, _ => none

variable {m m' : PeekPop α} {action : Action α} {a : α} {k : ℕ}

/-! ### Inversion -/

lemma apply_stage (h : m.apply .stage = some m') :
    m' = m ∧ m.staged.isSome = true ∨
      m.staged = none ∧ ∃ b q, m.queue = b :: q ∧ m' = { m with staged := some b } := by
  simp only [apply] at h
  split at h
  · next b hb => exact Or.inl ⟨(Option.some.inj h).symm, by simp [hb]⟩
  · next hb =>
    obtain ⟨b, hhead, rfl⟩ := Option.map_eq_some_iff.mp h
    exact Or.inr ⟨hb, b, m.queue.tail, (List.cons_head?_tail hhead).symm, rfl⟩

lemma apply_deliver (h : m.apply .deliver = some m') :
    ∃ a b q, m.staged = some a ∧ m.queue = b :: q ∧ m' =
      { m with
        queue := q
        staged := none
        popped := m.popped ++ [b]
        delivered := m.delivered ++ [a] } := by
  simp only [apply] at h
  split at h
  · next a b q ha hq => exact ⟨a, b, q, ha, hq, (Option.some.inj h).symm⟩
  · cases h

/-! ### What holds in any case -/

variable [LinearOrder α]

/-- Items are numbered in their order, and the delivered ones, the staged one and the queue follow
one another. -/
structure Inv (m : PeekPop α) : Prop where
  received : m.received.Pairwise (· < ·)
  queue : m.queue.Pairwise (· < ·)
  delivered : (m.delivered ++ m.staged.toList).Pairwise (· < ·)
  delivered_lt : ∀ d ∈ m.delivered, ∀ b ∈ m.queue, d < b
  staged_le : ∀ a, m.staged = some a → ∀ b ∈ m.queue, a ≤ b
  mem : ∀ b ∈ m.delivered ++ m.staged.toList ++ m.queue, b ∈ m.received
  cover : ∀ b ∈ m.received, b ∈ m.queue ∨ b ∈ m.removed ∨ b ∈ m.popped

/-- An item that is received comes after all others. -/
def Action.Fresh (m : PeekPop α) : Action α → Prop
  | receive _ a => ∀ b ∈ m.received, b < a
  | idle | stage | deliver => True

lemma Inv.receive (h : Inv m) (hfresh : ∀ b ∈ m.received, b < a) :
    Inv { m with
      queue := m.queue.drop k ++ [a]
      received := m.received ++ [a]
      removed := m.removed ++ m.queue.take k } := by
  have hdrop : ∀ b ∈ m.queue.drop k ++ [a], b ∈ m.queue ∨ b = a := by
    intro b hb
    rcases List.mem_append.mp hb with hb | hb
    · exact Or.inl (List.mem_of_mem_drop hb)
    · exact Or.inr (List.mem_singleton.mp hb)
  have hstaged : ∀ b, m.staged = some b → b ∈ m.received := by
    intro b hb
    exact h.mem b (by simp [hb])
  refine ⟨?_, ?_, h.delivered, ?_, ?_, ?_, ?_⟩
  · refine List.pairwise_append.mpr ⟨h.received, List.pairwise_singleton _ _, ?_⟩
    intro b hb c hc
    rw [List.mem_singleton.mp hc]
    exact hfresh b hb
  · refine List.pairwise_append.mpr
      ⟨h.queue.sublist (List.drop_sublist _ _), List.pairwise_singleton _ _, ?_⟩
    intro b hb c hc
    rw [List.mem_singleton.mp hc]
    exact hfresh b (h.mem b (by simp [List.mem_of_mem_drop hb]))
  · intro d hd b hb
    rcases hdrop b hb with hb | rfl
    · exact h.delivered_lt d hd b hb
    · exact hfresh d (h.mem d (by simp [hd]))
  · intro c hc b hb
    rcases hdrop b hb with hb | rfl
    · exact h.staged_le c hc b hb
    · exact (hfresh c (hstaged c hc)).le
  · intro b hb
    rcases List.mem_append.mp hb with hb | hb
    · exact List.mem_append_left _ (h.mem b (List.mem_append_left _ hb))
    · rcases hdrop b hb with hb | rfl
      · exact List.mem_append_left _ (h.mem b (List.mem_append_right _ hb))
      · exact List.mem_append_right _ (List.mem_singleton_self _)
  · intro b hb
    rcases List.mem_append.mp hb with hb | hb
    · rcases h.cover b hb with hq | hr | hp
      · rw [← List.take_append_drop k m.queue] at hq
        rcases List.mem_append.mp hq with hq | hq
        · exact Or.inr (Or.inl (List.mem_append_right _ hq))
        · exact Or.inl (List.mem_append_left _ hq)
      · exact Or.inr (Or.inl (List.mem_append_left _ hr))
      · exact Or.inr (Or.inr hp)
    · exact Or.inl (List.mem_append_right _ hb)

lemma Inv.stage {b : α} {q : List α} (h : Inv m) (hnone : m.staged = none)
    (hq : m.queue = b :: q) : Inv { m with staged := some b } := by
  have hdelivered := h.delivered
  have hmem := h.mem
  simp only [hnone, Option.toList_none, List.append_nil] at hdelivered hmem
  refine ⟨h.received, h.queue, ?_, h.delivered_lt, ?_, ?_, h.cover⟩
  · refine List.pairwise_append.mpr ⟨hdelivered, List.pairwise_singleton _ _, ?_⟩
    intro d hd c hc
    rw [List.mem_singleton.mp hc]
    exact h.delivered_lt d hd b (by simp [hq])
  · intro a ha c hc
    obtain rfl := Option.some.inj ha
    have hqueue := h.queue
    rw [hq] at hc hqueue
    rcases List.mem_cons.mp hc with rfl | hc
    · exact le_rfl
    · exact (List.rel_of_pairwise_cons hqueue hc).le
  · intro c hc
    refine hmem c ?_
    simp only [Option.toList_some, List.append_assoc, List.mem_append, List.mem_singleton] at hc ⊢
    rcases hc with hc | rfl | hc
    · exact Or.inl hc
    · exact Or.inr (by simp [hq])
    · exact Or.inr hc

lemma Inv.deliver {b : α} {q : List α} (h : Inv m) (ha : m.staged = some a)
    (hq : m.queue = b :: q) :
    Inv { m with
      queue := q
      staged := none
      popped := m.popped ++ [b]
      delivered := m.delivered ++ [a] } := by
  have hqueue := h.queue
  have hdelivered := h.delivered
  have hmem := h.mem
  simp only [ha, hq, Option.toList_some] at hqueue hdelivered hmem
  refine ⟨h.received, hqueue.of_cons, ?_, ?_, by simp, ?_, ?_⟩
  · simpa using hdelivered
  · intro d hd c hc
    have hlt : b < c := List.rel_of_pairwise_cons hqueue hc
    rcases List.mem_append.mp hd with hd | hd
    · exact h.delivered_lt d hd c (by simp [hq, hc])
    · rw [List.mem_singleton.mp hd]
      exact (h.staged_le a ha b (by simp [hq])).trans_lt hlt
  · intro c hc
    simp only [Option.toList_none, List.append_nil] at hc
    refine hmem c ?_
    rcases List.mem_append.mp hc with hc | hc
    · exact List.mem_append_left _ hc
    · exact List.mem_append_right _ (List.mem_cons_of_mem _ hc)
  · intro c hc
    rcases h.cover c hc with hcq | hr | hp
    · rw [hq] at hcq
      rcases List.mem_cons.mp hcq with rfl | hcq
      · exact Or.inr (Or.inr (by simp))
      · exact Or.inl hcq
    · exact Or.inr (Or.inl hr)
    · exact Or.inr (Or.inr (List.mem_append_left _ hp))

theorem Inv.apply (h : Inv m) (hm : m.apply action = some m') (hfresh : action.Fresh m) :
    Inv m' := by
  cases action with
  | idle =>
    obtain rfl := Option.some.inj hm
    exact h
  | receive k a =>
    obtain rfl := Option.some.inj hm
    exact h.receive hfresh
  | stage =>
    obtain ⟨rfl, -⟩ | ⟨hnone, b, q, hq, rfl⟩ := apply_stage hm
    · exact h
    · exact h.stage hnone hq
  | deliver =>
    obtain ⟨a, b, q, ha, hq, rfl⟩ := apply_deliver hm
    exact h.deliver ha hq

/-- No item is delivered twice, and none before one that was received earlier. -/
lemma Inv.delivered_sublist (h : Inv m) : m.delivered.Sublist m.received := by
  have hpair : m.delivered.Pairwise (· < ·) :=
    h.delivered.sublist (List.sublist_append_left _ _)
  have hsub : m.delivered ⊆ m.received := by
    intro b hb
    exact h.mem b (by simp [hb])
  refine List.sublist_of_subperm_of_pairwise (r := (· < ·)) ?_ hpair h.received
  exact List.subperm_of_subset (hpair.imp fun hlt => hlt.ne) hsub

/-! ### Keeping the staged item in front -/

/-- The staged item is still in front. -/
def Intact (m : PeekPop α) : Prop := ∀ a, m.staged = some a → m.queue.head? = some a

/-- Every item that was popped is the one that was delivered at that time. -/
def Faithful (m : PeekPop α) : Prop := m.delivered = m.popped

omit [LinearOrder α] in
lemma intact_of_staged_eq_none (h : m.staged = none) : Intact m := by
  intro a ha
  rw [h] at ha
  cases ha

/-- The producer loses the staged item exactly when it removes items while one is staged. -/
theorem intact_receive_iff (h : Inv m) (hm : m.apply (.receive k a) = some m')
    (hfresh : ∀ b ∈ m.received, b < a) :
    Intact m' ↔ Intact m ∧ (m.staged = none ∨ m.queue.take k = []) := by
  obtain rfl := Option.some.inj hm
  cases hstaged : m.staged with
  | none =>
    refine iff_of_true (intact_of_staged_eq_none rfl) ⟨?_, Or.inl rfl⟩
    exact intact_of_staged_eq_none hstaged
  | some c =>
    have hmem : c ∈ m.received := h.mem c (by simp [hstaged])
    simp only [Intact, hstaged, Option.some.injEq, forall_eq', reduceCtorEq, false_or,
      List.take_eq_nil_iff]
    cases hq : m.queue with
    | nil => simp [(hfresh c hmem).ne']
    | cons b q =>
      cases k with
      | zero => simp
      | succ k =>
        -- what is in front afterwards came after `b`
        have hlt : ∀ d ∈ q.drop k ++ [a], b < d := by
          intro d hd
          have hqueue := h.queue
          rw [hq] at hqueue
          rcases List.mem_append.mp hd with hd | hd
          · exact List.rel_of_pairwise_cons hqueue (List.mem_of_mem_drop hd)
          · rw [List.mem_singleton.mp hd]
            exact hfresh b (h.mem b (by simp [hq]))
        have hle : c ≤ b := h.staged_le c hstaged b (by simp [hq])
        refine iff_of_false (fun hhead => ?_) (by simp)
        exact absurd (hlt c (List.mem_of_mem_head? hhead)) (not_lt.mpr hle)

omit [LinearOrder α] in
lemma intact_stage_iff (hm : m.apply .stage = some m') : Intact m' ↔ Intact m := by
  obtain ⟨rfl, -⟩ | ⟨hnone, b, q, hq, rfl⟩ := apply_stage hm
  · exact Iff.rfl
  · refine iff_of_true (fun a ha => ?_) (intact_of_staged_eq_none hnone)
    rw [hq, ← Option.some.inj ha]
    rfl

omit [LinearOrder α] in
lemma faithful_stage_iff (hm : m.apply .stage = some m') : Faithful m' ↔ Faithful m := by
  obtain ⟨rfl, -⟩ | ⟨-, b, q, -, rfl⟩ := apply_stage hm
  · exact Iff.rfl
  · exact Iff.rfl

omit [LinearOrder α] in
/-- A delivery is faithful exactly when the staged item is still in front. -/
theorem faithful_deliver_iff (hm : m.apply .deliver = some m') :
    Faithful m' ↔ Faithful m ∧ Intact m := by
  obtain ⟨a, b, q, ha, hq, rfl⟩ := apply_deliver hm
  have hintact : Intact m ↔ a = b := by
    simp [Intact, ha, hq, eq_comm]
  rw [hintact]
  constructor
  · intro h
    obtain ⟨hinit, hlast⟩ := List.append_inj' h rfl
    exact ⟨hinit, by simpa using hlast⟩
  · rintro ⟨h, rfl⟩
    exact congrArg (fun l => l ++ [a]) h

/-- When the deliveries were faithful, an item that is neither delivered nor in the queue was
removed by the producer. -/
lemma Inv.cover_of_faithful (h : Inv m) (hfaithful : Faithful m) {b : α} (hb : b ∈ m.received) :
    b ∈ m.delivered ∨ b ∈ m.queue ∨ b ∈ m.removed := by
  rw [show m.delivered = m.popped from hfaithful]
  rcases h.cover b hb with hq | hr | hp
  · exact Or.inr (Or.inl hq)
  · exact Or.inr (Or.inr hr)
  · exact Or.inl hp

end PeekPop
