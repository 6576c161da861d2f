import HumanoidNavigation.Numeric.Binary32

/-!
# Doubles and singles of numpy

`NpDouble F` says of the doubles `F` of numpy what their operations do to the numbers that they
stand for, with the conversions from and to single precision. The numbers of `Binary64` have no sign
at zero and there is one NaN, while `F` may have more.
-/

open Binary32 (Word value)

/-- The operations of the doubles, as far as they are fixed by the numbers. -/
class NpDouble (F : Type) extends PyFloat F where
  /-- The number, without the sign of a zero. -/
  toBinary64 : F → Binary64
  /-- `astype(np.float64)` -/
  ofSingle : Word → F
  /-- `astype("<f4")` -/
  toSingle : F → Word
  toBinary64_lit (q : ℚ) : toBinary64 (lit q) = .ofReal q
  toBinary64_add (x y : F) : toBinary64 (x + y) = toBinary64 x + toBinary64 y
  toBinary64_mul (x y : F) : toBinary64 (x * y) = toBinary64 x * toBinary64 y
  sqrt_eq_ok (x : F) {r : Binary64} :
    (toBinary64 x).sqrt = .ok r → ∃ s, sqrt x = .ok s ∧ toBinary64 s = r
  div_eq_ok (x y : F) : (toBinary64 y).val ≠ .fin 0 → ∃ q, div x y = .ok q
  value_ofSingle (w : Word) : (toBinary64 (ofSingle w)).val = value w
  value_toSingle (x : F) : value (toSingle x) = Binary32.round (toBinary64 x).val

namespace Binary64

open ExtFloat

/-- A single has a mantissa of 24 bits. -/
lemma exists_mantissa_number {w : Word} (hw : Binary32.isFinite w = true) : ∃ k e : ℤ,
    |k| < 2 ^ 24 ∧ -149 ≤ e ∧ e ≤ 104 ∧ (Binary32.number w : ℝ) = k * 2 ^ e := by
  have hlt : w.toNat % 2 ^ 31 < Binary32.infinity := of_decide_eq_true hw
  rw [Binary32.infinity_eq] at hlt
  obtain ⟨k, e, hk, he, hmagnitude⟩ : ∃ k e : ℕ, k < 2 ^ 24 ∧ e ≤ 253 ∧
      Binary32.units (w.toNat % 2 ^ 31) = k * 2 ^ e := by
    rw [Binary32.units]
    split_ifs with hsmall
    · exact ⟨w.toNat % 2 ^ 31, 0, by omega, by omega, by rw [pow_zero, mul_one]⟩
    · exact ⟨2 ^ 23 + w.toNat % 2 ^ 31 % 2 ^ 23, w.toNat % 2 ^ 31 / 2 ^ 23 - 1, by omega, by omega,
        rfl⟩
  have hunits : ((Binary32.units (w.toNat % 2 ^ 31) : ℝ)) / 2 ^ 149 = k * 2 ^ ((e : ℤ) - 149) := by
    rw [hmagnitude, zpow_sub₀ two_ne_zero, zpow_natCast, Nat.cast_mul, Nat.cast_pow, Nat.cast_ofNat,
      mul_div_assoc]
    norm_cast
  have habs : |(k : ℤ)| < 2 ^ 24 := by
    rw [Nat.abs_cast]
    exact_mod_cast hk
  simp only [Binary32.number]
  split_ifs
  · exact ⟨k, e - 149, habs, by omega, by omega, by exact_mod_cast hunits⟩
  · refine ⟨-k, e - 149, by rwa [abs_neg], by omega, by omega, ?_⟩
    rw [hunits]
    push_cast
    ring

/-- A single as a double. -/
noncomputable def ofSingle (w : Word) : Binary64 where
  val := value w
  rounded := by
    intro x hx
    obtain ⟨hw, rfl⟩ := Binary32.isFinite_of_value hx
    obtain ⟨k, e, hk, he, -, hnumber⟩ := exists_mantissa_number hw
    exact nearestDouble_of_mantissa (by omega) (by omega) hnumber
  range := by
    intro x hx
    obtain ⟨hw, rfl⟩ := Binary32.isFinite_of_value hx
    obtain ⟨k, e, hk, -, he, hnumber⟩ := exists_mantissa_number hw
    have hkr : |(k : ℝ)| < 2 ^ (24 : ℤ) := by exact_mod_cast hk
    have hpow : (0 : ℝ) < 2 ^ e := zpow_pos two_pos _
    rw [hnumber, abs_mul, abs_of_pos hpow]
    calc |(k : ℝ)| * 2 ^ e < 2 ^ (24 : ℤ) * 2 ^ e := mul_lt_mul_of_pos_right hkr hpow
      _ = 2 ^ (24 + e) := (zpow_add₀ two_ne_zero _ _).symm
      _ ≤ overflow := zpow_le_zpow_right₀ one_le_two (by omega)

/-- Numbers whose zeros have no sign. -/
noncomputable instance [Libm] : NpDouble Binary64 where
  toBinary64 x := x
  ofSingle := ofSingle
  toSingle x := Binary32.encode x.val
  toBinary64_lit _ := rfl
  toBinary64_add _ _ := rfl
  toBinary64_mul _ _ := rfl
  sqrt_eq_ok _ r h := ⟨r, h, rfl⟩
  div_eq_ok _ _ h := ⟨_, if_neg h⟩
  value_ofSingle _ := rfl
  value_toSingle _ := rfl

end Binary64
