import HumanoidNavigation.Rotation.Basic
import Mathlib.Analysis.SpecialFunctions.Trigonometric.Basic
import Mathlib.LinearAlgebra.Matrix.DotProduct

/-!
# The rotation between two unit vectors

Programs rotate one unit vector onto another with a special case for vectors that are almost
parallel. Away from it the rotation is exact; near it a fixed rotation is used, and the error is
bounded by the sine of the angle.
-/

namespace Rotation

open Matrix

attribute [local instance] neZero_three atLeastTwo_two

section Field

variable {K : Type*} [Field K] {a b : Fin 3 → K}

lemma sub_dotProduct_sub (ha : a ⬝ᵥ a = 1) (hb : b ⬝ᵥ b = 1) :
    (a - b) ⬝ᵥ (a - b) = 2 - 2 * (a ⬝ᵥ b) := by
  rw [sub_dotProduct, dotProduct_sub, dotProduct_sub, ha, hb, dotProduct_comm b a]
  ring

/-- The matrix of a unit quaternion with imaginary part `t • v` is Rodrigues' polynomial of `v` when
`2 * w * t` is one. -/
lemma ofQuaternion_smul {v : Fin 3 → K} {t w : K}
    (hunit : t * v 0 * (t * v 0) + t * v 1 * (t * v 1) + t * v 2 * (t * v 2) + w * w = 1)
    (htw : 2 * w * t = 1) :
    ofQuaternion (t * v 0) (t * v 1) (t * v 2) w = rodrigues v (2 * t ^ 2) := by
  ext i j
  fin_cases i <;> fin_cases j <;>
    simp [ofQuaternion, rodrigues, skew, hunit] <;> grind

/-- The factor of Rodrigues' formula, with the square of the sine as its denominator. -/
lemma one_add_mul_factor (ha : a ⬝ᵥ a = 1) (hb : b ⬝ᵥ b = 1)
    (hv : (a ⨯₃ b) ⬝ᵥ (a ⨯₃ b) ≠ 0) :
    (1 + a ⬝ᵥ b) * ((1 - a ⬝ᵥ b) / ((a ⨯₃ b) ⬝ᵥ (a ⨯₃ b))) = 1 := by
  rw [← mul_div_assoc, div_eq_one_iff_eq hv, cross_dotProduct_cross ha hb]
  ring

end Field

section LinearOrderedField

variable {K : Type*} [Field K] [LinearOrder K] [IsStrictOrderedRing K] {a b : Fin 3 → K}

/-- Unit vectors at an acute angle are as close as the sine says. -/
lemma sub_dotProduct_sub_le (ha : a ⬝ᵥ a = 1) (hb : b ⬝ᵥ b = 1) (hab : 0 ≤ a ⬝ᵥ b) :
    (a - b) ⬝ᵥ (a - b) ≤ 2 * ((a ⨯₃ b) ⬝ᵥ (a ⨯₃ b)) := by
  have hsq : 0 ≤ (a ⨯₃ b) ⬝ᵥ (a ⨯₃ b) := Finset.sum_nonneg fun i _ => mul_self_nonneg _
  rw [cross_dotProduct_cross ha hb] at hsq ⊢
  rw [sub_dotProduct_sub ha hb]
  have hle : a ⬝ᵥ b ≤ 1 := by nlinarith
  nlinarith

/-- Unit vectors at an obtuse angle are almost opposite when the sine is small. -/
lemma one_add_dotProduct_le (ha : a ⬝ᵥ a = 1) (hb : b ⬝ᵥ b = 1) (hab : a ⬝ᵥ b ≤ 0) :
    1 + a ⬝ᵥ b ≤ (a ⨯₃ b) ⬝ᵥ (a ⨯₃ b) := by
  have hsq : 0 ≤ (a ⨯₃ b) ⬝ᵥ (a ⨯₃ b) := Finset.sum_nonneg fun i _ => mul_self_nonneg _
  rw [cross_dotProduct_cross ha hb] at hsq ⊢
  have hge : -1 ≤ a ⬝ᵥ b := by nlinarith
  nlinarith

end LinearOrderedField

/-! ### Lengths -/

noncomputable def length {n : ℕ} (v : Fin n → ℝ) : ℝ := √(v ⬝ᵥ v)

section Length

variable {n : ℕ} {v : Fin n → ℝ} {r : ℝ}

lemma dotProduct_self_nonneg (v : Fin n → ℝ) : 0 ≤ v ⬝ᵥ v :=
  Finset.sum_nonneg fun i _ => mul_self_nonneg (v i)

lemma length_mul_length (v : Fin n → ℝ) : length v * length v = v ⬝ᵥ v :=
  Real.mul_self_sqrt (dotProduct_self_nonneg v)

lemma length_le_iff (hr : 0 ≤ r) : length v ≤ r ↔ v ⬝ᵥ v ≤ r ^ 2 :=
  Real.sqrt_le_left hr

lemma length_lt_iff (hr : 0 < r) : length v < r ↔ v ⬝ᵥ v < r ^ 2 :=
  Real.sqrt_lt' hr

lemma length_pos (hv : v ≠ 0) : 0 < length v :=
  Real.sqrt_pos.mpr (lt_of_le_of_ne (dotProduct_self_nonneg v)
    fun h => hv (dotProduct_self_eq_zero.mp h.symm))

/-- The unit vector along `v`. -/
noncomputable def direction (v : Fin n → ℝ) : Fin n → ℝ := (length v)⁻¹ • v

lemma direction_unit (hv : v ≠ 0) : direction v ⬝ᵥ direction v = 1 := by
  have hne := (length_pos hv).ne'
  rw [direction, smul_dotProduct, dotProduct_smul, ← length_mul_length, smul_eq_mul, smul_eq_mul]
  field_simp

@[simp] lemma length_zero : length (0 : Fin n → ℝ) = 0 := by simp [length]

lemma length_smul (hr : 0 ≤ r) (v : Fin n → ℝ) : length (r • v) = r * length v := by
  rw [length, length, smul_dotProduct, dotProduct_smul, smul_eq_mul, smul_eq_mul, ← mul_assoc,
    Real.sqrt_mul (mul_self_nonneg r), Real.sqrt_mul_self hr]

/-- The part of a vector along a unit vector is not longer than the vector. -/
lemma dotProduct_le_length {m : Fin n → ℝ} (hm : m ⬝ᵥ m = 1) (v : Fin n → ℝ) :
    m ⬝ᵥ v ≤ length v := by
  have hcauchy : (m ⬝ᵥ v) ^ 2 ≤ (m ⬝ᵥ m) * (v ⬝ᵥ v) := by
    have h := Finset.sum_mul_sq_le_sq_mul_sq Finset.univ m v
    simpa only [dotProduct, sq] using h
  rw [hm, one_mul] at hcauchy
  exact Real.le_sqrt_of_sq_le hcauchy

/-- The height of a point above a plane is its distance from the plane. -/
lemma isLeast_height {m p : Fin n → ℝ} {d : ℝ} (hm : m ⬝ᵥ m = 1) (hp : 0 ≤ m ⬝ᵥ p + d) :
    IsLeast ((fun q => length (p - q)) '' {q | m ⬝ᵥ q + d = 0}) (m ⬝ᵥ p + d) := by
  refine ⟨⟨p - (m ⬝ᵥ p + d) • m, ?_, ?_⟩, ?_⟩
  · show m ⬝ᵥ (p - (m ⬝ᵥ p + d) • m) + d = 0
    rw [dotProduct_sub, dotProduct_smul, hm, smul_eq_mul]
    ring
  · have hfoot : p - (p - (m ⬝ᵥ p + d) • m) = (m ⬝ᵥ p + d) • m := sub_sub_cancel p _
    have hunit : length m = 1 := by rw [length, hm, Real.sqrt_one]
    show length (p - (p - (m ⬝ᵥ p + d) • m)) = m ⬝ᵥ p + d
    rw [hfoot, length_smul hp, hunit, mul_one]
  · rintro _ ⟨q, hq, rfl⟩
    have hq' : m ⬝ᵥ q + d = 0 := hq
    calc m ⬝ᵥ p + d = m ⬝ᵥ (p - q) := by
          rw [dotProduct_sub]
          linarith
      _ ≤ length (p - q) := dotProduct_le_length hm _

end Length

/-! ### Frames -/

section Frame

variable {u v : Fin 3 → ℝ}

/-- The rows `v`, `u ⨯₃ v` and `u` are a rotation. -/
lemma frame_mem (hu : u ⬝ᵥ u = 1) (hv : v ⬝ᵥ v = 1) (huv : u ⬝ᵥ v = 0) :
    Matrix.of ![v, u ⨯₃ v, u] ∈ specialOrthogonalGroup (Fin 3) ℝ := by
  have hcross : (u ⨯₃ v) ⬝ᵥ (u ⨯₃ v) = 1 := by
    rw [cross_dotProduct_cross hu hv, huv]
    norm_num
  have hvu : v ⬝ᵥ u = 0 := (dotProduct_comm v u).trans huv
  refine mem_specialOrthogonalGroup_iff.mpr ⟨(mem_orthogonalGroup_iff (Fin 3) ℝ).mpr ?_, ?_⟩
  · ext i j
    have hentry : (Matrix.of ![v, u ⨯₃ v, u] * (Matrix.of ![v, u ⨯₃ v, u])ᵀ) i j =
        (![v, u ⨯₃ v, u] i) ⬝ᵥ (![v, u ⨯₃ v, u] j) := rfl
    refine hentry.trans ?_
    fin_cases i <;> fin_cases j <;>
      simp [hu, hv, huv, hvu, hcross, dotProduct_comm (u ⨯₃ v)]
  · rw [← hcross, det_fin_three]
    simp [cross_apply]
    ring

/-- What is left of a vector without its part along `u`. -/
def rejection (u v : Fin 3 → ℝ) : Fin 3 → ℝ := v - (u ⬝ᵥ v) • u

lemma dotProduct_rejection (hu : u ⬝ᵥ u = 1) : u ⬝ᵥ rejection u v = 0 := by
  rw [rejection, dotProduct_sub, dotProduct_smul, hu, smul_eq_mul, mul_one, sub_self]

end Frame

/-! ### The half angle -/

section HalfAngle

variable {a b : Fin 3 → ℝ} {θ t w : ℝ}

/-- The quaternion of the axis `a ⨯₃ b` and the angle between `a` and `b` is a unit quaternion. -/
lemma halfAngle_unit (ht : t * length (a ⨯₃ b) = Real.sin (θ / 2)) (hw : w = Real.cos (θ / 2)) :
    t * (a ⨯₃ b) 0 * (t * (a ⨯₃ b) 0) + t * (a ⨯₃ b) 1 * (t * (a ⨯₃ b) 1) +
      t * (a ⨯₃ b) 2 * (t * (a ⨯₃ b) 2) + w * w = 1 := by
  have hlength := length_mul_length (a ⨯₃ b)
  rw [vec3_dotProduct] at hlength
  have hone : t * length (a ⨯₃ b) * (t * length (a ⨯₃ b)) + w * w = 1 := by
    rw [ht, hw]
    linear_combination Real.sin_sq_add_cos_sq (θ / 2)
  linear_combination hone - t * t * hlength

/-- It takes `a` onto `b`. -/
lemma halfAngle_mulVec (ha : a ⬝ᵥ a = 1) (hb : b ⬝ᵥ b = 1) (hs : 0 < length (a ⨯₃ b))
    (hcos : Real.cos θ = a ⬝ᵥ b) (hsin : Real.sin θ = length (a ⨯₃ b))
    (ht : t * length (a ⨯₃ b) = Real.sin (θ / 2)) (hw : w = Real.cos (θ / 2)) :
    ofQuaternion (t * (a ⨯₃ b) 0) (t * (a ⨯₃ b) 1) (t * (a ⨯₃ b) 2) w *ᵥ a = b := by
  have hdouble : 2 * (θ / 2) = θ := mul_div_cancel₀ θ two_ne_zero
  have hsine : 2 * Real.sin (θ / 2) * Real.cos (θ / 2) = length (a ⨯₃ b) := by
    rw [← Real.sin_two_mul, hdouble, hsin]
  have hcosine : 1 + a ⬝ᵥ b = 2 * w ^ 2 := by
    have hdoubled := Real.cos_two_mul (θ / 2)
    rw [hdouble, hcos, ← hw] at hdoubled
    linear_combination hdoubled
  have htw : 2 * w * t = 1 := by
    have h : 2 * w * t * length (a ⨯₃ b) = length (a ⨯₃ b) := by
      rw [mul_assoc, ht, hw, ← hsine]
      ring
    exact mul_right_cancel₀ hs.ne' (h.trans (one_mul _).symm)
  rw [ofQuaternion_smul (halfAngle_unit ht hw) htw]
  refine rodrigues_cross_mulVec ha hb ?_
  rw [hcosine]
  linear_combination (2 * w * t + 1) * htw

end HalfAngle

end Rotation
