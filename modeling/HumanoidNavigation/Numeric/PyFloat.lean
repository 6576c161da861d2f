import Mathlib.Algebra.Order.Ring.Rat
import Mathlib.Data.Rat.Floor

/-!
# The arithmetic of Python code

`PyFloat F` lists the operations that the modelled Python code performs on its floats. It has no
laws: a definition over it is the code for any arithmetic, be it binary64 with its rounding, its
infinities and its NaN, or exact arithmetic, and a theorem about such a definition holds for
all of them.

Operations that can raise an exception return an `Except`. A division of `numpy` scalars warns
where a division of Python floats raises, so there are two of them.
-/

/-- The exceptions that arithmetic and indexing can raise. -/
inductive PyError where
  | valueError
  | zeroDivisionError
  | overflowError
  | indexError
  deriving DecidableEq, Repr

/-- A computation that does not raise is made of parts that do not raise. -/
lemma Except.bind_eq_ok {ε α β : Type} {x : Except ε α} {f : α → Except ε β} {b : β} :
    (x >>= f) = .ok b ↔ ∃ a, x = .ok a ∧ f a = .ok b := by
  cases x with
  | error err => simp [bind, Except.bind]
  | ok a => simp [bind, Except.bind]

/-- The operations of a float type. -/
class PyFloat (F : Type) extends Add F, Sub F, Mul F, Neg F where
  /-- a literal, or the conversion of an integer -/
  lit : ℚ → F
  lt : F → F → Bool
  le : F → F → Bool
  abs : F → F
  /-- `x % y` -/
  mod : F → F → F
  /-- `/` of two Python floats -/
  div : F → F → Except PyError F
  /-- `/` of `numpy` scalars -/
  npDiv : F → F → F
  /-- `math.sqrt` -/
  sqrt : F → Except PyError F
  /-- `numpy.sqrt` -/
  npSqrt : F → F
  /-- `math.sin` -/
  sin : F → Except PyError F
  /-- `math.cos` -/
  cos : F → Except PyError F
  /-- `math.atan2` -/
  atan2 : F → F → F
  /-- `int(math.floor(x))` -/
  floor : F → Except PyError ℤ

/-- Exact arithmetic. The functions whose values are not rational in general have their values
at the simplest arguments and raise an exception or are `0` elsewhere; it is for concrete runs
that do not use them elsewhere. -/
abbrev PyFloat.exact : PyFloat ℚ where
  lit x := x
  lt x y := x < y
  le x y := x ≤ y
  abs x := if x < 0 then -x else x
  mod x y := x - y * ⌊x / y⌋
  div x y := if y = 0 then .error .zeroDivisionError else .ok (x / y)
  npDiv x y := x / y
  sqrt x := if x = 0 ∨ x = 1 then .ok x else .error .valueError
  npSqrt x := if x = 1 then 1 else 0
  sin x := if x = 0 then .ok 0 else .error .valueError
  cos x := if x = 0 then .ok 1 else .error .valueError
  atan2 _ _ := 0
  floor x := .ok ⌊x⌋
