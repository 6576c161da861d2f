import HumanoidNavigation.Transition.Run
import Mathlib.Algebra.Order.Monoid.Defs

/-!
# Tallies

What the steps of a run add up to: `tally step f s₀ es` is the sum of `f s e` over the steps that
the events `es` take from `s₀`.
-/

namespace Transition

variable {σ ε M : Type*} [AddCommMonoid M] {step : σ → ε → Option σ} {f : σ → ε → M} {s₀ s : σ}
  {es : List ε} {e : ε}

def tally (step : σ → ε → Option σ) (f : σ → ε → M) : σ → List ε → M
  | _, [] => 0
  | s, e :: es => f s e + ((step s e).map fun t => tally step f t es).getD 0

@[simp] lemma tally_nil : tally step f s₀ [] = 0 := rfl

/-- The last step of a run adds its part. -/
lemma tally_snoc (h : Run step s₀ es s) :
    tally step f s₀ (es ++ [e]) = tally step f s₀ es + f s e := by
  induction es generalizing s₀ with
  | nil =>
    obtain rfl := run_nil_iff.mp h
    cases hstep : step s e <;> simp [tally, hstep]
  | cons e' es ih =>
    obtain ⟨t, ht, hrun⟩ := run_cons_iff.mp h
    simp only [List.cons_append, tally, ht, Option.map_some, Option.getD_some]
    rw [ih hrun, add_assoc]

/-- A run spends at most what it gets: `left` is what there still is to spend, and a step may spend
`f` of that and of what it gets, which is `g`. -/
theorem tally_add_le [PartialOrder M] [IsOrderedAddMonoid M] {p : ε → Prop} {g : σ → ε → M}
    (I : σ → Prop) (left : σ → M) (hinit : I s₀) (hleft : left s₀ = 0)
    (hstep : ∀ s e t, I s → p e → step s e = some t → I t ∧ f s e + left t ≤ left s + g s e)
    (h : Run step s₀ es s) (hp : ∀ e ∈ es, p e) :
    I s ∧ tally step f s₀ es + left s ≤ tally step g s₀ es := by
  induction h with
  | nil => exact ⟨hinit, by simp [hleft]⟩
  | @snoc es s t e hrun he ih =>
    obtain ⟨hI, hle⟩ := ih fun e' he' => hp e' (List.mem_append_left _ he')
    obtain ⟨hI', hle'⟩ := hstep s e t hI (hp e (by simp)) he
    refine ⟨hI', ?_⟩
    rw [tally_snoc hrun, tally_snoc hrun]
    calc tally step f s₀ es + f s e + left t
        = tally step f s₀ es + (f s e + left t) := add_assoc _ _ _
      _ ≤ tally step f s₀ es + (left s + g s e) := add_le_add_right hle' _
      _ = tally step f s₀ es + left s + g s e := (add_assoc _ _ _).symm
      _ ≤ tally step g s₀ es + g s e := add_le_add_left hle _

end Transition
