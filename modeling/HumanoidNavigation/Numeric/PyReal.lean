import HumanoidNavigation.Numeric.PyFloat
import Mathlib.Analysis.SpecialFunctions.Complex.Arg
import Mathlib.Analysis.Real.Sqrt

/-!
# Python arithmetic on the reals

`PyFloat.real` is exact arithmetic with the real values of the functions, where `PyFloat.exact`
computes. `roundHalfEven` is `round(x)` of Python.
-/

noncomputable abbrev PyFloat.real : PyFloat ℝ where
  lit q := q
  lt x y := decide (x < y)
  le x y := decide (x ≤ y)
  abs x := |x|
  mod x y := x - y * ⌊x / y⌋
  div x y := if y = 0 then .error .zeroDivisionError else .ok (x / y)
  npDiv x y := x / y
  sqrt x := if x < 0 then .error .valueError else .ok √x
  npSqrt x := √x
  sin x := .ok (Real.sin x)
  cos x := .ok (Real.cos x)
  atan2 y x := Complex.arg ⟨x, y⟩
  floor x := .ok ⌊x⌋

namespace PyFloat

attribute [local instance] PyFloat.real

@[simp] lemma real_lit (q : ℚ) : (lit q : ℝ) = q := rfl

lemma real_lit_pos {q : ℚ} (h : 0 < q) : (0 : ℝ) < lit q := Rat.cast_pos.mpr h

lemma real_lit_nonneg {q : ℚ} (h : 0 ≤ q) : (0 : ℝ) ≤ lit q := Rat.cast_nonneg.mpr h

@[simp] lemma real_lt (x y : ℝ) : lt x y = decide (x < y) := rfl

@[simp] lemma real_le (x y : ℝ) : le x y = decide (x ≤ y) := rfl

@[simp] lemma real_abs (x : ℝ) : PyFloat.abs x = |x| := rfl

@[simp] lemma real_mod (x y : ℝ) : mod x y = x - y * ⌊x / y⌋ := rfl

@[simp] lemma real_npSqrt (x : ℝ) : npSqrt x = √x := rfl

lemma atLeastTwo_two : Nat.AtLeastTwo 2 := ⟨le_rfl⟩

lemma atLeastTwo_ten : Nat.AtLeastTwo 10 := ⟨by norm_num⟩

/-! The angle of a point has its direction as cosine and sine. -/

lemma norm_mk (x y : ℝ) : ‖(⟨x, y⟩ : ℂ)‖ = √(x * x + y * y) := by
  rw [Complex.norm_def, Complex.normSq_mk]

lemma cos_arg {x y : ℝ} (h : 0 < x * x + y * y) :
    Real.cos (Complex.arg ⟨x, y⟩) = x / √(x * x + y * y) := by
  have hne : (⟨x, y⟩ : ℂ) ≠ 0 := by
    rw [← norm_pos_iff, norm_mk]
    exact Real.sqrt_pos.mpr h
  rw [Complex.cos_arg hne, norm_mk]

lemma sin_arg (x y : ℝ) : Real.sin (Complex.arg ⟨x, y⟩) = y / √(x * x + y * y) := by
  rw [Complex.sin_arg, norm_mk]

end PyFloat

section

attribute [local instance] PyFloat.atLeastTwo_two

/-- `round(x)`: the nearest integer, the even one of two. -/
def roundHalfEven {K : Type} [Field K] [LinearOrder K] [FloorRing K] (x : K) : ℤ :=
  let d := x - ⌊x⌋
  if d < 1 / 2 then ⌊x⌋
  else if 1 / 2 < d then ⌊x⌋ + 1
  else if ⌊x⌋ % 2 = 0 then ⌊x⌋
  else ⌊x⌋ + 1

@[simp] lemma roundHalfEven_intCast {K : Type} [Field K] [LinearOrder K] [IsStrictOrderedRing K]
    [FloorRing K] (n : ℤ) : roundHalfEven (n : K) = n := by
  simp [roundHalfEven]

end
