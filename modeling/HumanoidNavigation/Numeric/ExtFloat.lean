import Mathlib.Algebra.Order.Group.Abs
import Mathlib.Algebra.Order.Group.MinMax
import Mathlib.Tactic.Common

/-!
# Floating-point values in exact arithmetic

`ExtFloat K` is what a `float` variable can hold when rounding is left out: an element of `K`,
one of the two infinities or NaN. The operations and the comparisons follow IEEE 754 on these
values; in particular every comparison with NaN is false, and `pyMin` and `pyMax` depend on
the order of their arguments as the built-in functions of Python do.

On finite values everything agrees with `K`; the `simp` lemmas say so.
-/

/-- A floating-point value without rounding. -/
inductive ExtFloat (K : Type*) where
  | fin (x : K)
  | posInf
  | negInf
  | nan
  deriving DecidableEq, Repr

namespace ExtFloat

variable {K : Type*}

/-- `math.isfinite` -/
def isFinite : ExtFloat K → Bool
  | fin _ => true
  | _ => false

instance [Zero K] : Zero (ExtFloat K) := ⟨fin 0⟩

lemma zero_def [Zero K] : (0 : ExtFloat K) = fin 0 := rfl

section Arithmetic

variable [AddCommGroup K]

protected def neg : ExtFloat K → ExtFloat K
  | fin x => fin (-x)
  | posInf => negInf
  | negInf => posInf
  | nan => nan

/-- IEEE addition: the sum of opposite infinities is NaN. -/
protected def add : ExtFloat K → ExtFloat K → ExtFloat K
  | fin x, fin y => fin (x + y)
  | nan, _ | _, nan => nan
  | posInf, negInf | negInf, posInf => nan
  | posInf, _ | _, posInf => posInf
  | negInf, _ | _, negInf => negInf

instance : Neg (ExtFloat K) := ⟨ExtFloat.neg⟩
instance : Add (ExtFloat K) := ⟨ExtFloat.add⟩
instance : Sub (ExtFloat K) := ⟨fun x y => x + -y⟩

@[simp] lemma fin_add_fin (x y : K) : fin x + fin y = fin (x + y) := rfl

@[simp] lemma fin_sub_fin (x y : K) : fin x - fin y = fin (x - y) := by
  rw [sub_eq_add_neg]
  rfl

end Arithmetic

section Order

variable [LinearOrder K]

/-- The comparison `<`. -/
def lt : ExtFloat K → ExtFloat K → Bool
  | fin x, fin y => decide (x < y)
  | fin _, posInf | negInf, fin _ | negInf, posInf => true
  | _, _ => false

protected lemma lt_asymm {x y : ExtFloat K} (h : x.lt y = true) : y.lt x = false := by
  cases x <;> cases y <;> simp_all [lt, le_of_lt]

protected lemma lt_trans {x y z : ExtFloat K} (hxy : x.lt y = true) (hyz : y.lt z = true) :
    x.lt z = true := by
  cases x <;> cases y <;> cases z <;> simp_all [lt]
  exact hxy.trans hyz

/-- What is not above a number is below whatever the number is below. -/
protected lemma lt_of_lt_of_not_lt {x y z : ExtFloat K} (hxy : x.lt y = true) (hz : z ≠ nan)
    (hzy : z.lt y = false) : x.lt z = true := by
  cases x <;> cases y <;> cases z <;> simp_all [lt]
  exact hxy.trans_le hzy

/-- `min(x, y)`: the second argument only when it is strictly smaller. -/
def pyMin (x y : ExtFloat K) : ExtFloat K := if y.lt x then y else x

/-- `max(x, y)`: the second argument only when it is strictly larger. -/
def pyMax (x y : ExtFloat K) : ExtFloat K := if x.lt y then y else x

@[simp] lemma fin_lt_fin (x y : K) : (fin x).lt (fin y) = decide (x < y) := rfl

@[simp] lemma pyMin_fin (x y : K) : pyMin (fin x) (fin y) = fin (min x y) := by
  by_cases h : y < x
  · simp [pyMin, h, min_eq_right h.le]
  · simp [pyMin, h, min_eq_left (not_lt.mp h)]

@[simp] lemma pyMax_fin (x y : K) : pyMax (fin x) (fin y) = fin (max x y) := by
  by_cases h : x < y
  · simp [pyMax, h, max_eq_right h.le]
  · simp [pyMax, h, max_eq_left (not_lt.mp h)]

variable [AddCommGroup K]

/-- `abs` -/
protected def abs : ExtFloat K → ExtFloat K
  | fin x => fin |x|
  | nan => nan
  | _ => posInf

end Order

end ExtFloat
