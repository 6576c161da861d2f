import Mathlib.Data.List.Induction
import Mathlib.Order.BoundedOrder.Basic
import Mathlib.Order.Lattice
import Mathlib.Tactic.Common

/-!
# The nearest entry of a list

`LastNearest d xs x` says that `x` is the last of the entries of `xs` with the least distance. A
list that is not empty has exactly one. `scan` looks for it from the end of the list and may stop
before the beginning; it finds it when the entries before the place where it stops are not nearer
than the one there.
-/

namespace Search

section

variable {α D : Type*} [LinearOrder D] {d : α → D} {xs : List α} {x y : α}

/-- The last entry at the least distance. -/
def LastNearest (d : α → D) (xs : List α) (x : α) : Prop :=
  ∃ pre post, xs = pre ++ x :: post ∧ (∀ y ∈ pre, d x ≤ d y) ∧ ∀ y ∈ post, d x < d y

lemma LastNearest.mem (h : LastNearest d xs x) : x ∈ xs := by
  obtain ⟨pre, post, rfl, -⟩ := h
  simp

lemma LastNearest.le (h : LastNearest d xs x) (hy : y ∈ xs) : d x ≤ d y := by
  obtain ⟨pre, post, rfl, hpre, hpost⟩ := h
  rcases List.mem_append.mp hy with hy | hy
  · exact hpre y hy
  · rcases List.mem_cons.mp hy with rfl | hy
    · exact le_rfl
    · exact (hpost y hy).le

/-- A new entry at the end that is not farther is the nearest one. -/
lemma lastNearest_append_self (h : ∀ y ∈ xs, d x ≤ d y) : LastNearest d (xs ++ [x]) x :=
  ⟨xs, [], rfl, h, by simp⟩

/-- A new entry at the end that is farther changes nothing. -/
lemma LastNearest.append (h : LastNearest d xs x) (hy : d x < d y) :
    LastNearest d (xs ++ [y]) x := by
  obtain ⟨pre, post, rfl, hpre, hpost⟩ := h
  refine ⟨pre, post ++ [y], by simp, hpre, ?_⟩
  intro z hz
  rcases List.mem_append.mp hz with hz | hz
  · exact hpost z hz
  · rw [List.mem_singleton.mp hz]
    exact hy

/-- New entries at the beginning that are not nearer change nothing. -/
lemma LastNearest.prepend {ys : List α} (h : LastNearest d xs x) (hys : ∀ y ∈ ys, d x ≤ d y) :
    LastNearest d (ys ++ xs) x := by
  obtain ⟨pre, post, rfl, hpre, hpost⟩ := h
  refine ⟨ys ++ pre, post, by simp, ?_, hpost⟩
  intro z hz
  rcases List.mem_append.mp hz with hz | hz
  · exact hys z hz
  · exact hpre z hz

lemma exists_lastNearest (hxs : xs ≠ []) : ∃ x, LastNearest d xs x := by
  induction xs using List.reverseRecOn with
  | nil => exact absurd rfl hxs
  | append_singleton xs y ih =>
    by_cases hnil : xs = []
    · exact ⟨y, lastNearest_append_self (by simp [hnil])⟩
    obtain ⟨x, hx⟩ := ih hnil
    rcases lt_or_ge (d x) (d y) with hlt | hle
    · exact ⟨x, hx.append hlt⟩
    · exact ⟨y, lastNearest_append_self fun z hz => hle.trans (hx.le hz)⟩

lemma LastNearest.unique (hx : LastNearest d xs x) (hy : LastNearest d xs y) : x = y := by
  induction xs using List.reverseRecOn generalizing x y with
  | nil => simpa using hx.mem
  | append_singleton xs z ih =>
    have hcases : ∀ {w}, LastNearest d (xs ++ [z]) w →
        w = z ∧ (∀ v ∈ xs, d z ≤ d v) ∨ LastNearest d xs w ∧ d w < d z := by
      rintro w ⟨pre, post, heq, hpre, hpost⟩
      rcases List.eq_nil_or_concat post with rfl | ⟨post, v, rfl⟩
      · obtain ⟨rfl, hw⟩ := List.append_inj' heq rfl
        obtain rfl := List.singleton_inj.mp hw
        exact Or.inl ⟨rfl, hpre⟩
      · rw [List.concat_eq_append, ← List.cons_append, ← List.append_assoc] at heq
        obtain ⟨rfl, hv⟩ := List.append_inj' heq rfl
        obtain rfl := List.singleton_inj.mp hv
        refine Or.inr ⟨⟨pre, post, rfl, hpre, fun u hu => hpost u ?_⟩, hpost z ?_⟩
        · rw [List.concat_eq_append]
          exact List.mem_append_left _ hu
        · simp
    rcases hcases hx with ⟨rfl, hzx⟩ | ⟨hx', hxz⟩ <;> rcases hcases hy with ⟨rfl, hzy⟩ | ⟨hy', hyz⟩
    · rfl
    · exact absurd (hzx y hy'.mem) hyz.not_ge
    · exact absurd (hzy x hx'.mem) hxz.not_ge
    · exact ih hx' hy'

lemma LastNearest.exists_and_iff (h : LastNearest d xs x) (p : α → Prop) :
    (∃ y, LastNearest d xs y ∧ p y) ↔ p x := by
  constructor
  · rintro ⟨y, hy, hp⟩
    rwa [← hy.unique h]
  · intro hp
    exact ⟨x, h, hp⟩

end

/-! ### Looking from the end -/

section

variable {α D : Type*} [LinearOrder D] [OrderTop D] {d : α → D} {past : α → Bool} {x y : α}
  {best : Option α} {seen rest : List α}

/-- The distance of what has been found. -/
def reach (d : α → D) (best : Option α) : D := best.elim ⊤ d

/-- Keep the entry if it is nearer. -/
def nearer (d : α → D) (best : Option α) (x : α) : Option α :=
  if d x < reach d best then some x else best

/-- Look through a list, which is given from its end; stop at an entry in the past that is farther
than what has been found. -/
def scan (d : α → D) (past : α → Bool) : Option α → List α → Option α
  | best, [] => best
  | best, x :: rest =>
    if past x && decide (reach d (nearer d best x) < d x) then nearer d best x
    else scan d past (nearer d best x) rest

/-- What has been found is the nearest entry of those seen; nothing has been found when all of
them are infinitely far. -/
def Found (d : α → D) (seen : List α) : Option α → Prop
  | none => ∀ x ∈ seen, d x = ⊤
  | some x => LastNearest d seen x ∧ d x < ⊤

lemma Found.nearer (h : Found d seen best) : Found d (x :: seen) (nearer d best x) := by
  cases best with
  | none =>
    rw [Search.nearer, reach, Option.elim_none]
    split_ifs with hx
    · refine ⟨⟨[], seen, rfl, by simp, ?_⟩, hx⟩
      intro y hy
      rwa [h y hy]
    · intro y hy
      rcases List.mem_cons.mp hy with rfl | hy
      · exact not_lt_top_iff.mp hx
      · exact h y hy
  | some b =>
    rw [Search.nearer, reach, Option.elim_some]
    split_ifs with hx
    · refine ⟨⟨[], seen, rfl, by simp, ?_⟩, hx.trans h.2⟩
      intro y hy
      exact hx.trans_le (h.1.le hy)
    · have hfirst : LastNearest d ([x] ++ seen) b := h.1.prepend (by simpa using hx)
      exact ⟨hfirst, h.2⟩

/-- Entries that are farther than what has been found change nothing. -/
lemma Found.prepend (h : Found d seen best) (hrest : ∀ y ∈ rest, reach d best < d y) :
    Found d (rest ++ seen) best := by
  cases best with
  | none =>
    intro y hy
    rcases List.mem_append.mp hy with hy | hy
    · exact absurd (hrest y hy) not_top_lt
    · exact h y hy
  | some b => exact ⟨h.1.prepend fun y hy => (hrest y hy).le, h.2⟩

/-- The scan finds what a look at all entries would find, if the entries before one that is in the
past are not nearer than it. -/
lemma Found.scan (hpast : rest.Pairwise fun x y => past x = true → d x ≤ d y)
    (h : Found d seen best) : Found d (rest.reverse ++ seen) (scan d past best rest) := by
  induction rest generalizing best seen with
  | nil => exact h
  | cons x rest ih =>
    obtain ⟨hx, hrest⟩ := List.pairwise_cons.mp hpast
    rw [List.reverse_cons, List.append_assoc, List.singleton_append, Search.scan]
    split_ifs with hstop
    · rw [Bool.and_eq_true, decide_eq_true_eq] at hstop
      refine h.nearer.prepend fun y hy => ?_
      exact hstop.2.trans_le (hx y (List.mem_reverse.mp hy) hstop.1)
    · exact ih hrest h.nearer

end

end Search
