import HumanoidNavigation.Numeric.CppFloat
import HumanoidNavigation.Numeric.PyReal

/-!
# C++ arithmetic on the reals

`CppMath F` adds the functions of `<cmath>` to the arithmetic of a floating-point type.
`CppMath.real` is exact arithmetic with the real values of these functions.
-/

class CppMath (F : Type) extends CppFloat F where
  /-- `std::sqrt` -/
  sqrt : F → F
  /-- `std::sin` -/
  sin : F → F
  /-- `std::cos` -/
  cos : F → F
  /-- `std::atan2` -/
  atan2 : F → F → F

noncomputable abbrev CppMath.real : CppMath ℝ where
  lit q := q
  lt x y := decide (x < y)
  abs x := |x|
  floor x := ⌊x⌋
  truncate x := ⌊x⌋.toNat
  sqrt x := √x
  sin x := Real.sin x
  cos x := Real.cos x
  atan2 y x := Complex.arg ⟨x, y⟩

namespace CppMath

attribute [local instance] CppMath.real

@[simp] lemma real_lit (q : ℚ) : (CppFloat.lit q : ℝ) = q := rfl

@[simp] lemma real_lt (x y : ℝ) : CppFloat.lt x y = decide (x < y) := rfl

@[simp] lemma real_abs (x : ℝ) : CppFloat.abs x = |x| := rfl

@[simp] lemma real_floor (x : ℝ) : CppFloat.floor x = ⌊x⌋ := rfl

@[simp] lemma real_truncate (x : ℝ) : CppFloat.truncate x = ⌊x⌋.toNat := rfl

@[simp] lemma real_sqrt (x : ℝ) : sqrt x = √x := rfl

@[simp] lemma real_sin (x : ℝ) : sin x = Real.sin x := rfl

@[simp] lemma real_cos (x : ℝ) : cos x = Real.cos x := rfl

@[simp] lemma real_atan2 (y x : ℝ) : atan2 y x = Complex.arg ⟨x, y⟩ := rfl

/-- The angle of a point of the unit circle has its coordinates as cosine and sine. -/
lemma cos_atan2 {x y : ℝ} (h : x * x + y * y = 1) : Real.cos (atan2 y x) = x := by
  rw [real_atan2, PyFloat.cos_arg (by rw [h]; exact one_pos), h, Real.sqrt_one, div_one]

lemma sin_atan2 {x y : ℝ} (h : x * x + y * y = 1) : Real.sin (atan2 y x) = y := by
  rw [real_atan2, PyFloat.sin_arg, h, Real.sqrt_one, div_one]

end CppMath
