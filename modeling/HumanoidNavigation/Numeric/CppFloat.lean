import Mathlib.Algebra.Order.Field.Rat
import Mathlib.Data.Rat.Floor

/-!
# The arithmetic of C++ code

`CppFloat F` lists the operations that the modelled C++ code performs on a `double` or a `float`.
It has no laws: a definition over it is the code for any arithmetic, and a theorem about such a
definition holds for binary floating point with its rounding, its infinities and its NaN as well
as for exact arithmetic. `CppFloat.exact` is exact arithmetic.
-/

/-- The operations of a floating-point type. -/
class CppFloat (F : Type) extends Add F, Sub F, Mul F, Div F, Neg F where
  /-- a literal, or the conversion of an integer -/
  lit : ℚ → F
  lt : F → F → Bool
  /-- `std::abs` -/
  abs : F → F
  /-- `std::floor`, converted to an integer -/
  floor : F → ℤ
  /-- the conversion to an unsigned integer, of a value that is not negative -/
  truncate : F → ℕ

namespace CppFloat

variable {F : Type} [CppFloat F]

/-- `std::max(x, y)`: the second argument only when it is strictly larger. -/
def max (x y : F) : F := if lt x y then y else x

/-- Exact arithmetic. -/
abbrev exact : CppFloat ℚ where
  lit x := x
  lt x y := x < y
  abs x := if x < 0 then -x else x
  floor x := ⌊x⌋
  truncate x := ⌊x⌋.toNat

section

attribute [local instance] exact

@[simp] lemma exact_lt (x y : ℚ) : lt x y = decide (x < y) := rfl

@[simp] lemma exact_lit (x : ℚ) : (lit x : ℚ) = x := rfl

end

end CppFloat
