import Mathlib.Analysis.Normed.Group.AddCircle
import Mathlib.Tactic.Linarith
import Mathlib.Tactic.Ring

/-!
# Moving a part of the way

A filter moves its state a part `K` of the way to a measurement. On a line the state stays in the
interval that the measurements span (`Spanned`). On a circle of circumference `p` the way is the
shorter arc, and the circular distance shrinks by the factor `1 - K`; the state itself is a number
and counts the turns.
-/

/-! ### On a line -/

section Line

variable {R : Type*} [Field R] [LinearOrder R] [IsStrictOrderedRing R] {x z K : R} {xs ys : List R}

/-- `x` is between two values of the list. -/
def Spanned (xs : List R) (x : R) : Prop := ∃ lo ∈ xs, ∃ hi ∈ xs, lo ≤ x ∧ x ≤ hi

omit [Field R] [IsStrictOrderedRing R] in
lemma spanned_of_mem (h : x ∈ xs) : Spanned xs x := ⟨x, h, x, h, le_rfl, le_rfl⟩

omit [Field R] [IsStrictOrderedRing R] in
lemma Spanned.mono (h : Spanned xs x) (hsub : xs ⊆ ys) : Spanned ys x := by
  obtain ⟨lo, hlo, hi, hhi, hle, hge⟩ := h
  exact ⟨lo, hsub hlo, hi, hsub hhi, hle, hge⟩

/-- A part of the way to a value of the list. -/
lemma Spanned.blend (h : Spanned xs x) (hz : z ∈ xs) (h0 : 0 ≤ K) (h1 : K ≤ 1) :
    Spanned xs (x + K * (z - x)) := by
  obtain ⟨lo, hlo, hi, hhi, hle, hge⟩ := h
  have h1' : 0 ≤ 1 - K := by linarith
  rcases le_total x z with hxz | hzx
  · refine ⟨lo, hlo, z, hz, ?_, ?_⟩
    · nlinarith [mul_nonneg h0 (sub_nonneg.mpr hxz)]
    · nlinarith [mul_nonneg h1' (sub_nonneg.mpr hxz)]
  · refine ⟨z, hz, hi, hhi, ?_, ?_⟩
    · nlinarith [mul_nonneg h1' (sub_nonneg.mpr hzx)]
    · nlinarith [mul_nonneg h0 (sub_nonneg.mpr hzx)]

end Line

/-! ### On a circle -/

section Circle

variable {p x d K : ℝ}

/-- The representative of `d` modulo `p` that is nearest to zero. -/
noncomputable def shortArc (p d : ℝ) : ℝ := d + p / 2 - p * ⌊(d + p / 2) / p⌋ - p / 2

lemma coe_shortArc (p d : ℝ) : (shortArc p d : AddCircle p) = d := by
  have h : shortArc p d = d - ⌊(d + p / 2) / p⌋ • p := by
    rw [shortArc, zsmul_eq_mul]
    ring
  rw [h, AddCircle.coe_sub, AddCircle.coe_zsmul, AddCircle.coe_period, smul_zero, sub_zero]

lemma abs_shortArc_le (hp : 0 < p) (d : ℝ) : |shortArc p d| ≤ p / 2 := by
  have hfloor := Int.floor_le ((d + p / 2) / p)
  have hlt := Int.lt_floor_add_one ((d + p / 2) / p)
  rw [le_div_iff₀ hp] at hfloor
  rw [div_lt_iff₀ hp] at hlt
  rw [abs_le, shortArc]
  constructor
  · linarith
  · linarith

lemma norm_coe_of_abs_le (hp : 0 < p) (hd : |d| ≤ p / 2) : ‖(d : AddCircle p)‖ = |d| := by
  rw [AddCircle.norm_coe_eq_abs_iff p hp.ne', abs_of_pos hp]
  exact hd

/-- The shorter arc is as long as the circular distance. -/
lemma abs_shortArc (hp : 0 < p) (x y : ℝ) :
    |shortArc p (y - x)| = dist (x : AddCircle p) (y : AddCircle p) := by
  rw [dist_comm, dist_eq_norm, ← AddCircle.coe_sub, ← coe_shortArc,
    norm_coe_of_abs_le hp (abs_shortArc_le hp _)]

/-- A part `K` of the way along an arc of at most half a turn leaves `1 - K` of the distance. -/
lemma dist_blend (hp : 0 < p) (hd : |d| ≤ p / 2) (h0 : 0 ≤ K) (h1 : K ≤ 1) :
    dist ((x + K * d : ℝ) : AddCircle p) ((x + d : ℝ) : AddCircle p) =
      (1 - K) * dist (x : AddCircle p) ((x + d : ℝ) : AddCircle p) := by
  have h1' : 0 ≤ 1 - K := sub_nonneg.mpr h1
  have hrest : |(1 - K) * d| ≤ p / 2 := by
    rw [abs_mul, abs_of_nonneg h1']
    exact (mul_le_of_le_one_left (abs_nonneg d) (by linarith)).trans hd
  have hleft : x + d - (x + K * d) = (1 - K) * d := by ring
  have hright : x + d - x = d := by ring
  rw [dist_comm, dist_eq_norm, ← AddCircle.coe_sub, hleft, norm_coe_of_abs_le hp hrest, dist_comm,
    dist_eq_norm, ← AddCircle.coe_sub, hright, norm_coe_of_abs_le hp hd, abs_mul,
    abs_of_nonneg h1']

end Circle
