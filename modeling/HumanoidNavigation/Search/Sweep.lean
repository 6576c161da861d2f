import Mathlib.Data.List.TakeWhile
import Mathlib.Tactic.Common

/-!
# Sweeping two sequences from the back

An outer loop goes over stops and an inner loop over items, both from the latest on. An item that is
late at the stop is acted on and left behind. The inner loop never leaves the first item behind: it
breaks off there, and the next stops meet that item again.

So every item but the first is acted on at one stop, the latest that it is late at, if there is one,
and the first item at all of these, `sweep_concat`.
-/

namespace Sweep

variable {α β : Type*}

/-- The inner loop at a stop, with the items from the latest on: those that it leaves behind and the
rest. -/
def pass (late : β → α → Bool) (act : β → α → α) (stop : β) : List α → List α × List α
  | [] => ([], [])
  | [x] => ([], [if late stop x then act stop x else x])
  | x :: y :: xs =>
    if late stop x then
      let r := pass late act stop (y :: xs)
      (act stop x :: r.1, r.2)
    else ([], x :: y :: xs)

/-- The outer loop. -/
def sweep (late : β → α → Bool) (act : β → α → α) : List β → List α → List α
  | [], xs => xs
  | stop :: stops, xs =>
    let r := pass late act stop xs
    r.1 ++ sweep late act stops r.2

/-- What becomes of an item that is acted on at the first stop that it is late at. -/
def once (late : β → α → Bool) (act : β → α → α) (stops : List β) (x : α) : α :=
  match stops.find? (late · x) with
  | some stop => act stop x
  | none => x

/-- What becomes of an item that is acted on at all stops that it is late at. -/
def again (late : β → α → Bool) (act : β → α → α) (stops : List β) (x : α) : α :=
  (stops.filter (late · x)).foldl (fun x stop => act stop x) x

/-- The item is late at the stop and at none that comes before it. -/
def First (late : β → α → Bool) (stops : List β) (x : α) (stop : β) : Prop :=
  late stop x = true ∧
    ∃ before after, stops = before ++ stop :: after ∧ ∀ s ∈ before, late s x = false

variable {late : β → α → Bool} {act : β → α → α} {stop : β} {stops : List β} {x first : α}
  {xs : List α}

variable (late act stops x) in
/-- An item is acted on at its first stop, and one that is late at none stays as it is. -/
lemma once_cases :
    (∃ stop, First late stops x stop ∧ once late act stops x = act stop x) ∨
      (∀ stop ∈ stops, late stop x = false) ∧ once late act stops x = x := by
  cases hfind : stops.find? (late · x) with
  | none =>
    refine Or.inr ⟨fun stop hstop => ?_, by rw [once, hfind]⟩
    simpa using List.find?_eq_none.mp hfind stop hstop
  | some stop =>
    obtain ⟨hlate, before, after, hstops, hbefore⟩ := List.find?_eq_some_iff_append.mp hfind
    exact Or.inl ⟨stop, ⟨hlate, before, after, hstops, by simpa using hbefore⟩, by
      rw [once, hfind]⟩

lemma pass_cons (hxs : xs ≠ []) :
    pass late act stop (x :: xs) =
      if late stop x then (act stop x :: (pass late act stop xs).1, (pass late act stop xs).2)
      else ([], x :: xs) := by
  cases xs with
  | nil => exact absurd rfl hxs
  | cons y xs => rfl

/-- The inner loop, when the first item is late only after all others. -/
lemma pass_concat (hfirst : late stop first = true → ∀ x ∈ xs, late stop x = true) :
    pass late act stop (xs ++ [first]) =
      ((xs.takeWhile (late stop)).map (act stop),
        xs.dropWhile (late stop) ++ [if late stop first then act stop first else first]) := by
  induction xs with
  | nil => rfl
  | cons x xs ih =>
    rw [List.cons_append, pass_cons (by simp)]
    cases hx : late stop x with
    | true =>
      rw [ih fun h y hy => hfirst h y (List.mem_cons_of_mem _ hy)]
      simp [hx]
    | false =>
      have hnot : late stop first = false := by
        by_contra h
        rw [Bool.not_eq_false] at h
        simp [hfirst h x List.mem_cons_self] at hx
      simp [hx, hnot]

/-- Behind an item that is not late none is. -/
lemma not_late_of_mem_dropWhile (hxs : xs.Pairwise fun x y => ∀ stop, late stop y → late stop x)
    (hx : x ∈ xs.dropWhile (late stop)) : late stop x = false := by
  induction xs with
  | nil => simp at hx
  | cons y xs ih =>
    obtain ⟨hy, hxs⟩ := List.pairwise_cons.mp hxs
    cases hlate : late stop y with
    | true =>
      rw [List.dropWhile_cons_of_pos hlate] at hx
      exact ih hxs hx
    | false =>
      rw [List.dropWhile_cons_of_neg (by simp [hlate])] at hx
      rcases List.mem_cons.mp hx with rfl | hx
      · exact hlate
      · by_contra h
        rw [Bool.not_eq_false] at h
        simp [hy x hx stop h] at hlate

lemma again_cons (hact : ∀ stop stop' x, late stop' (act stop x) = late stop' x) :
    again late act (stop :: stops) first =
      again late act stops (if late stop first then act stop first else first) := by
  unfold again
  cases hlate : late stop first with
  | true => simp [hlate, hact]
  | false => simp [hlate]

/-- Every item but the first is acted on once, and the first at every stop that it is late at. -/
theorem sweep_concat (hact : ∀ stop stop' x, late stop' (act stop x) = late stop' x)
    (hxs : (xs ++ [first]).Pairwise fun x y => ∀ stop, late stop y → late stop x) :
    sweep late act stops (xs ++ [first]) =
      xs.map (once late act stops) ++ [again late act stops first] := by
  induction stops generalizing xs first with
  | nil =>
    rw [show once late act [] = id from rfl, List.map_id]
    rfl
  | cons stop stops ih =>
    obtain ⟨hpair, -, hfirst⟩ := List.pairwise_append.mp hxs
    have hlast : ∀ stop, late stop first = true → ∀ x ∈ xs, late stop x = true :=
      fun stop h x hx => hfirst x hx first (List.mem_singleton_self _) stop h
    have hrest : (xs.dropWhile (late stop) ++
        [if late stop first then act stop first else first]).Pairwise
          fun x y => ∀ stop, late stop y → late stop x := by
      refine List.pairwise_append.mpr ⟨hpair.sublist (List.dropWhile_sublist _),
        List.pairwise_singleton _ _, fun x hx y hy stop' h => ?_⟩
      rw [List.mem_singleton] at hy
      subst hy
      refine hlast stop' ?_ x ((List.dropWhile_sublist _).subset hx)
      split_ifs at h
      · rwa [hact] at h
      · exact h
    have htake : (xs.takeWhile (late stop)).map (act stop) =
        (xs.takeWhile (late stop)).map (once late act (stop :: stops)) := by
      apply List.map_congr_left
      intro x hx
      have hlate : late stop x = true := List.mem_takeWhile_imp hx
      simp [once, hlate]
    have hdrop : (xs.dropWhile (late stop)).map (once late act stops) =
        (xs.dropWhile (late stop)).map (once late act (stop :: stops)) := by
      apply List.map_congr_left
      intro x hx
      have hlate : late stop x = false := not_late_of_mem_dropWhile hpair hx
      simp [once, hlate]
    rw [sweep, pass_concat (hlast stop)]
    simp only
    rw [ih hrest, htake, hdrop, again_cons hact, ← List.append_assoc, ← List.map_append,
      List.takeWhile_append_dropWhile]

end Sweep
