import HumanoidNavigation.Transition.Shadow
import Mathlib.Algebra.Order.Group.Nat
import Mathlib.Data.Nat.ModEq
import Mathlib.Logic.Function.Basic

/-!
# Ring buffers

A queue in `n` cells that go round, with a counter. Pushing never fails: where there is no room the
oldest items are overwritten, and the counter and the flag for the empty queue know nothing of it.

`Holds` says which cells a queue of any length leaves intact, those of its last `n` items. So the
front is the oldest item of a queue of at most `n` items, and in general the one at the last
multiple of `n`, `Holds.front`. `Shadow.holds_of_run` is about the log of a rebuild.
-/

variable {α : Type*}

structure RingBuffer (α : Type*) where
  head : ℕ
  tail : ℕ
  counter : ℕ
  isEmpty : Bool
  cells : ℕ → α

namespace RingBuffer

def clear (r : RingBuffer α) : RingBuffer α :=
  { r with head := 0, tail := 0, counter := 0, isEmpty := true }

def push (n : ℕ) (r : RingBuffer α) (a : α) : RingBuffer α :=
  { r with
    cells := Function.update r.cells r.tail a
    counter := r.counter + 1
    isEmpty := false
    tail := (r.tail + 1) % n }

def pop (n : ℕ) (r : RingBuffer α) : RingBuffer α :=
  if r.counter = 0 then r
  else
    { r with
      head := (r.head + 1) % n
      counter := r.counter - 1
      isEmpty := if r.counter - 1 = 0 then true else r.isEmpty }

def front (r : RingBuffer α) : α := r.cells r.head

/-- The ring is a queue of the items `xs`, of which it still has the last `n`. -/
structure Holds (n : ℕ) (r : RingBuffer α) (xs : List α) : Prop where
  head : r.head < n
  tail : r.tail = (r.head + xs.length) % n
  counter : r.counter = xs.length
  isEmpty : r.isEmpty = true ↔ xs = []
  cells : ∀ j < xs.length, xs.length ≤ j + n → xs[j]? = some (r.cells ((r.head + j) % n))

variable {n : ℕ} {r : RingBuffer α} {xs : List α} {a : α}

@[simp] lemma push_head : (r.push n a).head = r.head := rfl

@[simp] lemma push_cells : (r.push n a).cells = Function.update r.cells r.tail a := rfl

lemma Holds.clear (hn : 0 < n) : r.clear.Holds n [] where
  head := hn
  tail := (Nat.zero_mod n).symm
  counter := rfl
  isEmpty := iff_of_true rfl rfl
  cells j hj := absurd hj (Nat.not_lt_zero j)

/-- The cells of a new item and of the `n - 1` items before it are different. -/
lemma cell_ne {head j k : ℕ} (hjk : j < k) (hk : k < j + n) : (head + j) % n ≠ (head + k) % n := by
  intro heq
  have hmod : j ≡ k [MOD n] := Nat.ModEq.add_left_cancel' head heq
  have hdvd : n ∣ k - j := (Nat.modEq_iff_dvd' hjk.le).mp hmod
  exact absurd (Nat.le_of_dvd (by omega) hdvd) (by omega)

lemma Holds.push (h : r.Holds n xs) (a : α) : (r.push n a).Holds n (xs ++ [a]) where
  head := h.head
  tail := by
    rw [RingBuffer.push, h.tail, Nat.mod_add_mod, List.length_append, List.length_singleton,
      add_assoc]
  counter := by rw [RingBuffer.push, h.counter, List.length_append, List.length_singleton]
  isEmpty := iff_of_false (by simp [RingBuffer.push]) (by simp)
  cells j hj hlast := by
    rw [List.length_append, List.length_singleton] at hj hlast
    rcases Nat.lt_succ_iff_lt_or_eq.mp hj with hj | rfl
    · have hne : (r.head + j) % n ≠ r.tail := by
        rw [h.tail]
        exact cell_ne hj (by omega)
      rw [List.getElem?_append_left hj, h.cells j hj (by omega), push_head, push_cells,
        Function.update_of_ne hne]
    · rw [List.getElem?_concat_length, push_head, push_cells, ← h.tail, Function.update_self]

lemma Holds.pop (h : r.Holds n (a :: xs)) : (r.pop n).Holds n xs := by
  have hcounter : r.counter = xs.length + 1 := h.counter
  have hpop : r.pop n = { r with
      head := (r.head + 1) % n
      counter := xs.length
      isEmpty := if xs.length = 0 then true else r.isEmpty } := by
    simp [RingBuffer.pop, hcounter]
  rw [hpop]
  refine ⟨Nat.mod_lt _ (Nat.zero_lt_of_lt h.head), ?_, rfl, ?_, fun j hj hlast => ?_⟩
  · rw [h.tail, Nat.mod_add_mod, List.length_cons, add_assoc, add_comm 1]
  · have hnot : r.isEmpty ≠ true := fun he => List.cons_ne_nil _ _ (h.isEmpty.mp he)
    cases xs with
    | nil => simp
    | cons b xs => simpa using hnot
  · rw [Nat.mod_add_mod, add_assoc, add_comm 1, ← h.cells (j + 1) (by simpa) (by simp; omega),
      List.getElem?_cons_succ]

/-- The front is the item at the last multiple of `n`. -/
theorem Holds.front (h : r.Holds n xs) (hxs : xs ≠ []) :
    xs[n * ((xs.length - 1) / n)]? = some r.front := by
  have hpos : 0 < xs.length := List.length_pos_iff.mpr hxs
  have hle : n * ((xs.length - 1) / n) ≤ xs.length - 1 := Nat.mul_div_le _ _
  have hlt : xs.length - 1 < n * ((xs.length - 1) / n) + n :=
    Nat.lt_mul_div_succ _ (Nat.zero_lt_of_lt h.head)
  rw [h.cells _ (by omega) (by omega), Nat.add_mul_mod_self_left, Nat.mod_eq_of_lt h.head,
    RingBuffer.front]

/-- With at most `n` items the front is the oldest. -/
lemma Holds.front_eq (h : r.Holds n (a :: xs)) (hlen : (a :: xs).length ≤ n) : r.front = a := by
  have hfront := h.front (List.cons_ne_nil _ _)
  have hzero : ((a :: xs).length - 1) / n = 0 :=
    Nat.div_eq_of_lt (lt_of_lt_of_le (Nat.sub_lt (Nat.succ_pos _) one_pos) hlen)
  rw [hzero, mul_zero, List.getElem?_cons_zero] at hfront
  exact (Option.some.inj hfront).symm

end RingBuffer

/-! ### The log of a rebuild -/

namespace Shadow

open Transition

variable {σ ρ ω τ : Type*} {n : ℕ} {b : Object σ ρ ω τ} {x : σ} {s t : State σ ρ ω}
  {e : Event ω τ} {es : List (Event ω τ)} {r : RingBuffer ω} {w w' : State σ ρ ω × RingBuffer ω}

/-- What an event does to a ring that has the log. -/
def logged (n : ℕ) (s : State σ ρ ω) (r : RingBuffer ω) : Event ω τ → RingBuffer ω
  | .locked =>
    match s.waiting with
    | some o => if s.recording then r.push n o else r
    | none => r
  | .pop => r.pop n
  | _ => r

/-- The threads with a ring that has the log. -/
def stepLogged (n : ℕ) (b : Object σ ρ ω τ) (w : State σ ρ ω × RingBuffer ω) (e : Event ω τ) :
    Option (State σ ρ ω × RingBuffer ω) :=
  (step b w.1 e).map fun t => (t, logged n w.1 w.2 e)

/-- The ring follows the threads wherever they go. -/
lemma exists_stepLogged_run (n : ℕ) (r : RingBuffer ω) (h : Run (step b) s es t) :
    ∃ r', Run (stepLogged n b) (s, r) es (t, r') := by
  induction h with
  | nil => exact ⟨r, .nil⟩
  | snoc _ he ih =>
    obtain ⟨r', hr'⟩ := ih
    exact ⟨_, hr'.snoc (by rw [stepLogged, he, Option.map_some])⟩

lemma log_step (h : step b s e = some t) (hlocked : e ≠ .locked) (hpop : e ≠ .pop) :
    t.log = s.log := by
  cases e with
  | locked => exact absurd rfl hlocked
  | pop => exact absurd rfl hpop
  | _ => grind [step, Option.map_eq_some_iff]

lemma holds_logged (hr : r.Holds n s.log) (h : step b s e = some t) :
    (logged n s r e).Holds n t.log := by
  cases e with
  | locked =>
    cases hwaiting : s.waiting with
    | none => simp [step, hwaiting] at h
    | some o =>
      simp only [step, hwaiting, Option.map_eq_some_iff] at h
      obtain ⟨object, -, rfl⟩ := h
      simp only [logged, hwaiting]
      split_ifs
      · exact hr.push o
      · exact hr
  | pop =>
    simp only [step] at h
    split at h
    · next new o log _ hlog =>
      obtain rfl := Option.some.inj h
      rw [hlog] at hr
      exact hr.pop
    · contradiction
  | _ =>
    rw [← log_step h (by simp) (by simp)] at hr
    exact hr

/-- The ring holds the log. -/
theorem holds_of_run (hn : 0 < n) (hrun : Run (stepLogged n b) (.init x, r.clear) es w) :
    w.2.Holds n w.1.log := by
  refine hrun.invariant_state (I := fun w => w.2.Holds n w.1.log) (RingBuffer.Holds.clear hn)
    fun w e w' hw he => ?_
  obtain ⟨t, ht, rfl⟩ := Option.map_eq_some_iff.mp he
  exact holds_logged hw ht

end Shadow
