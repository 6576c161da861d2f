import Mathlib.Data.List.Basic
import Mathlib.Data.Option.Basic
import Mathlib.Tactic.Common

/-!
# Mailboxes that keep the newest item

A sender puts items into a mailbox and a receiver takes them out, holds the last one it took and
delivers it. Both may drop items on the way: the sender what waits in the mailbox, the receiver
what it holds. The item zero is neutral, and the receiver may deliver it on its own account.

`Ordered` says that the delivered items other than zero are items that were put, each at most once
and in their order. `Quenched` says what can still be delivered after the mailbox was emptied and
zero put into it: the item that the receiver held at that time.
-/

variable {α : Type*}

structure Mailbox (α : Type*) where
  queue : List α := []
  held : Option α := none
  sent : List α := []

namespace Mailbox

inductive Action (α : Type*) where
  | idle
  /-- put an item into an empty mailbox -/
  | put (a : α)
  /-- drop the oldest item of the mailbox -/
  | discard
  /-- take the oldest item, in place of the one that is held -/
  | take
  /-- hold zero, in place of any other item -/
  | expire
  /-- drop the item that is held, if there is one -/
  | drop
  /-- deliver the item that is held -/
  | send
  /-- hold nothing and deliver zero -/
  | sendZero

variable [Zero α]

/-- Perform one action; `none` when the mailbox or the receiver does not have what it takes. -/
def apply (m : Mailbox α) : Action α → Option (Mailbox α)
  | .idle => some m
  | .put a => if m.queue = [] then some { m with queue := [a] } else none
  | .discard => m.queue.head?.map fun _ => { m with queue := m.queue.tail }
  | .take => m.queue.head?.map fun a => { m with queue := m.queue.tail, held := some a }
  | .expire => some { m with held := some 0 }
  | .drop => some { m with held := none }
  | .send => m.held.map fun a => { m with held := none, sent := m.sent ++ [a] }
  | .sendZero => some { m with held := none, sent := m.sent ++ [0] }

/-- What was delivered, what is held and what waits, from the oldest to the newest. -/
def all (m : Mailbox α) : List α := m.sent ++ m.held.toList ++ m.queue

variable [DecidableEq α] {m m' base : Mailbox α} {action : Action α} {puts : List α}

/-- The items other than zero. -/
def motion (l : List α) : List α := l.filter fun a => a ≠ 0

@[simp] lemma motion_append (l l' : List α) : motion (l ++ l') = motion l ++ motion l' :=
  List.filter_append l l'

@[simp] lemma motion_zero : motion [(0 : α)] = [] := by simp [motion]

lemma motion_sublist {l l' : List α} (h : l.Sublist l') : (motion l).Sublist (motion l') :=
  h.filter _

@[simp] lemma mem_motion {l : List α} {a : α} : a ∈ motion l ↔ a ∈ l ∧ a ≠ 0 := by
  simp [motion]

/-- The items other than zero that an action brings in. -/
def Action.motion : Action α → List α
  | put a => Mailbox.motion [a]
  | idle | discard | take | expire | drop | send | sendZero => []

/-- Nothing is repeated, reordered or made up by an action. -/
lemma motion_all_sublist (h : m.apply action = some m') :
    (motion m'.all).Sublist (motion m.all ++ action.motion) := by
  cases action with
  | idle =>
    obtain rfl := Option.some.inj h
    exact List.sublist_append_left _ _
  | put a =>
    simp only [apply, Option.ite_none_right_eq_some, Option.some.injEq] at h
    obtain ⟨hqueue, rfl⟩ := h
    simp [all, hqueue, Action.motion]
  | discard =>
    obtain ⟨a, -, rfl⟩ := Option.map_eq_some_iff.mp h
    simp only [Action.motion, List.append_nil]
    exact motion_sublist ((List.tail_sublist _).append_left _)
  | take =>
    obtain ⟨a, ha, rfl⟩ := Option.map_eq_some_iff.mp h
    obtain ⟨q, hq⟩ : ∃ q, m.queue = a :: q := ⟨m.queue.tail, (List.cons_head?_tail ha).symm⟩
    simp only [Action.motion, List.append_nil, all, hq, List.tail_cons, Option.toList_some]
    refine motion_sublist ?_
    rw [List.append_assoc, List.append_assoc]
    exact (List.sublist_append_right _ _).append_left _
  | expire =>
    obtain rfl := Option.some.inj h
    simp only [Action.motion, all, motion_append, Option.toList_some, motion_zero, List.append_nil]
    exact (List.sublist_append_left _ _).append_right _
  | drop =>
    obtain rfl := Option.some.inj h
    simp only [Action.motion, all, motion_append, Option.toList_none, List.append_nil]
    exact (List.sublist_append_left _ _).append_right _
  | send =>
    obtain ⟨a, ha, rfl⟩ := Option.map_eq_some_iff.mp h
    simp [Action.motion, all, ha]
  | sendZero =>
    obtain rfl := Option.some.inj h
    simp only [Action.motion, all, motion_append, Option.toList_none, motion_zero, List.append_nil]
    exact (List.sublist_append_left _ _).append_right _

/-- The items other than zero that were delivered, are held or wait, are some of those that were
put, in the same order. -/
def Ordered (puts : List α) (m : Mailbox α) : Prop := (motion m.all).Sublist puts

theorem Ordered.apply (h : Ordered puts m) (hm : m.apply action = some m') :
    Ordered (puts ++ action.motion) m' :=
  (motion_all_sublist hm).trans (h.append_right _)

lemma Ordered.motion_sent (h : Ordered puts m) : (motion m.sent).Sublist puts := by
  refine (motion_sublist ?_).trans h
  rw [all, List.append_assoc]
  exact List.sublist_append_left _ _

/-! ### After zero was put -/

/-- Since the mailbox was `base`, only zeros were put, and nothing else than the item that was
held then was delivered. -/
structure Quenched (base m : Mailbox α) : Prop where
  queue : ∀ a ∈ m.queue, a = 0
  sent : ∃ later, m.sent = base.sent ++ later ∧
    (motion (later ++ m.held.toList)).Sublist base.held.toList

/-- Zero was put into the empty mailbox. -/
lemma quenched_put_zero (h : m.apply (.put 0) = some m') : Quenched m' m' := by
  simp only [Mailbox.apply, Option.ite_none_right_eq_some, Option.some.injEq] at h
  obtain ⟨-, rfl⟩ := h
  refine ⟨by simp, [], by simp, ?_⟩
  exact List.filter_sublist

/-- Only putting an item other than zero ends the quiet. -/
theorem Quenched.apply (h : Quenched base m) (hm : m.apply action = some m')
    (haction : action.motion = []) : Quenched base m' := by
  obtain ⟨hqueue, later, hsent, hlater⟩ := h
  have hdrop : (motion later).Sublist base.held.toList := by
    refine .trans ?_ hlater
    rw [motion_append]
    exact List.sublist_append_left _ _
  cases action with
  | idle =>
    obtain rfl := Option.some.inj hm
    exact ⟨hqueue, later, hsent, hlater⟩
  | put a =>
    simp only [Mailbox.apply, Option.ite_none_right_eq_some, Option.some.injEq] at hm
    obtain ⟨-, rfl⟩ := hm
    refine ⟨?_, later, hsent, hlater⟩
    intro b hb
    obtain rfl := List.mem_singleton.mp hb
    by_contra hne
    have hmem : b ∈ Action.motion (.put b) := mem_motion.mpr ⟨List.mem_singleton_self b, hne⟩
    simp [haction] at hmem
  | discard =>
    obtain ⟨a, -, rfl⟩ := Option.map_eq_some_iff.mp hm
    exact ⟨fun b hb => hqueue b (List.mem_of_mem_tail hb), later, hsent, hlater⟩
  | take =>
    obtain ⟨a, ha, rfl⟩ := Option.map_eq_some_iff.mp hm
    obtain rfl := hqueue a (List.mem_of_mem_head? ha)
    exact ⟨fun b hb => hqueue b (List.mem_of_mem_tail hb), later, hsent, by simpa using hdrop⟩
  | expire =>
    obtain rfl := Option.some.inj hm
    exact ⟨hqueue, later, hsent, by simpa using hdrop⟩
  | drop =>
    obtain rfl := Option.some.inj hm
    exact ⟨hqueue, later, hsent, by simpa using hdrop⟩
  | send =>
    obtain ⟨a, ha, rfl⟩ := Option.map_eq_some_iff.mp hm
    exact ⟨hqueue, later ++ [a], by simp [hsent], by simpa [ha] using hlater⟩
  | sendZero =>
    obtain rfl := Option.some.inj hm
    exact ⟨hqueue, later ++ [0], by simp [hsent], by simpa using hdrop⟩

end Mailbox
