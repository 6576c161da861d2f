import HumanoidNavigation.Numeric.ExtFloat
import HumanoidNavigation.Numeric.PyReal
import Mathlib.Data.Int.Log
import Mathlib.Tactic.Positivity

/-!
# Double precision

`nearestDouble x` is the number with a mantissa of 53 bits and an exponent of at least `-1074` that
is nearest to `x`, the one with an even mantissa of two; it is monotone, and it leaves such numbers
alone. A `Binary64` is such a number, an infinity or NaN, and its operations are those on
`ExtFloat` followed by rounding, as in IEEE 754. Zero has no sign here.
-/

attribute [local instance] PyFloat.atLeastTwo_two

/-! ### Rounding to an integer -/

section

variable {K : Type} [Field K] [LinearOrder K] [FloorRing K] {x y : K}

lemma floor_le_roundHalfEven (x : K) : ⌊x⌋ ≤ roundHalfEven x := by
  simp only [roundHalfEven]
  split_ifs
  · exact le_rfl
  · exact Int.le_add_one le_rfl
  · exact le_rfl
  · exact Int.le_add_one le_rfl

lemma roundHalfEven_le_floor_add_one (x : K) : roundHalfEven x ≤ ⌊x⌋ + 1 := by
  simp only [roundHalfEven]
  split_ifs
  · exact Int.le_add_one le_rfl
  · exact le_rfl
  · exact Int.le_add_one le_rfl
  · exact le_rfl

variable [IsStrictOrderedRing K]

lemma roundHalfEven_mono (h : x ≤ y) : roundHalfEven x ≤ roundHalfEven y := by
  rcases (Int.floor_mono h).lt_or_eq with hlt | heq
  · calc roundHalfEven x ≤ ⌊x⌋ + 1 := roundHalfEven_le_floor_add_one x
      _ ≤ ⌊y⌋ := hlt
      _ ≤ roundHalfEven y := floor_le_roundHalfEven y
  · simp only [roundHalfEven, heq]
    have hd : x - ⌊y⌋ ≤ y - ⌊y⌋ := sub_le_sub_right h _
    split_ifs
    all_goals first | omega | (exfalso; linarith)

lemma roundHalfEven_neg (x : K) : roundHalfEven (-x) = -roundHalfEven x := by
  rcases eq_or_ne (⌊x⌋ : K) x with hx | hx
  · rw [← hx, ← Int.cast_neg, roundHalfEven_intCast, roundHalfEven_intCast]
  · have hfloor : ⌊-x⌋ = -⌊x⌋ - 1 := by
      rw [Int.floor_eq_iff]
      have hlt := lt_of_le_of_ne (Int.floor_le x) hx
      have hadd := Int.lt_floor_add_one x
      push_cast
      constructor
      · linarith
      · linarith
    simp only [roundHalfEven, hfloor]
    push_cast
    split_ifs
    all_goals first | omega | (exfalso; linarith)

end

/-! ### The nearest double -/

section

variable {K : Type} [Field K] [LinearOrder K] [FloorRing K]

/-- The exponent of the last bit of a double near `x`. -/
def lastBit (x : K) : ℤ := max (Int.log 2 |x| - 52) (-1074)

/-- The nearest double of `x`, were its exponent not bounded above. -/
def nearestDouble (x : K) : K := roundHalfEven (x / 2 ^ lastBit x) * 2 ^ lastBit x

variable {x y : K}

lemma le_lastBit (x : K) : -1074 ≤ lastBit x := le_max_right _ _

lemma lastBit_neg (x : K) : lastBit (-x) = lastBit x := by
  rw [lastBit, lastBit, abs_neg]

variable [IsStrictOrderedRing K]

lemma lastBit_pos (x : K) : (0 : K) < 2 ^ lastBit x := zpow_pos two_pos _

lemma nearestDouble_neg (x : K) : nearestDouble (-x) = -nearestDouble x := by
  rw [nearestDouble, nearestDouble, lastBit_neg, neg_div, roundHalfEven_neg, Int.cast_neg, neg_mul]

lemma lastBit_mono (hx : 0 < x) (h : x ≤ y) : lastBit x ≤ lastBit y := by
  rw [lastBit, lastBit, abs_of_pos hx, abs_of_pos (hx.trans_le h)]
  exact max_le_max_right _ (sub_le_sub_right (Int.log_mono_right hx h) _)

/-- The last bit of the numbers between two powers of two. -/
lemma lastBit_of_between {e : ℤ} (he : -1022 ≤ e) (hlo : 2 ^ e ≤ x) (hhi : x < 2 ^ (e + 1)) :
    lastBit x = e - 52 := by
  have hx : 0 < x := (zpow_pos two_pos e).trans_le hlo
  have hle : e ≤ Int.log 2 x := (Int.zpow_le_iff_le_log one_lt_two hx).mp (by simpa using hlo)
  have hlt : Int.log 2 x < e + 1 :=
    (Int.lt_zpow_iff_log_lt one_lt_two hx).mp (by simpa using hhi)
  rw [lastBit, abs_of_pos hx]
  omega

/-- A multiple of the last bit stays. -/
lemma nearestDouble_of_eq_mul {k : ℤ} (h : x = k * 2 ^ lastBit x) : nearestDouble x = x := by
  have hk : x / 2 ^ lastBit x = k := (div_eq_iff (lastBit_pos x).ne').mpr h
  rw [nearestDouble, hk, roundHalfEven_intCast]
  exact h.symm

/-- The last bit of a number of at most 53 bits is not after the end of these bits. -/
lemma lastBit_le {k e : ℤ} (hk : |k| < 2 ^ 53) (he : -1074 ≤ e) (hx : x = k * 2 ^ e)
    (hne : x ≠ 0) : lastBit x ≤ e := by
  have hlt : |x| < (2 : ℕ) ^ (e + 53) := by
    have hcast : (|k| : K) < 2 ^ (53 : ℤ) := by exact_mod_cast hk
    have hpos : (0 : K) < 2 ^ e := zpow_pos two_pos _
    rw [hx, abs_mul, abs_of_pos hpos, Nat.cast_ofNat, zpow_add₀ two_ne_zero, mul_comm]
    exact mul_lt_mul_of_pos_left hcast hpos
  have hlog := (Int.lt_zpow_iff_log_lt one_lt_two (abs_pos.mpr hne)).mp hlt
  exact max_le (by omega) he

@[simp] lemma nearestDouble_zero : nearestDouble (0 : K) = 0 := by
  simp [nearestDouble, roundHalfEven]

omit [IsStrictOrderedRing K] in
/-- A power of two, from the last bit on, is a multiple of it. -/
lemma two_zpow_eq_mul {e : ℤ} (h : lastBit x ≤ e) :
    (2 : K) ^ e = ((2 ^ (e - lastBit x).toNat : ℤ) : K) * 2 ^ lastBit x := by
  push_cast
  rw [← zpow_natCast, ← zpow_add₀ two_ne_zero]
  congr 1
  omega

/-- Numbers with a mantissa of 53 bits and an exponent that is not too small stay. -/
lemma nearestDouble_of_mantissa {k e : ℤ} (hk : |k| < 2 ^ 53) (he : -1074 ≤ e)
    (hx : x = k * 2 ^ e) : nearestDouble x = x := by
  by_cases hne : x = 0
  · rw [hne, nearestDouble_zero]
  · refine nearestDouble_of_eq_mul (k := k * 2 ^ (e - lastBit x).toNat) ?_
    rw [Int.cast_mul, mul_assoc, ← two_zpow_eq_mul (lastBit_le hk he hx hne)]
    exact hx

lemma nearestDouble_two_zpow {e : ℤ} (he : -1074 ≤ e) : nearestDouble (2 ^ e : K) = 2 ^ e :=
  nearestDouble_of_mantissa (k := 1) (by norm_num) he (by simp)

lemma nearestDouble_le_two_zpow {e : ℤ} (he : lastBit x ≤ e) (h : x ≤ 2 ^ e) :
    nearestDouble x ≤ 2 ^ e := by
  rw [two_zpow_eq_mul he] at h ⊢
  have hle := roundHalfEven_mono ((div_le_iff₀ (lastBit_pos x)).mpr h)
  rw [roundHalfEven_intCast] at hle
  exact mul_le_mul_of_nonneg_right (Int.cast_le.mpr hle) (lastBit_pos x).le

lemma two_zpow_le_nearestDouble {e : ℤ} (he : lastBit x ≤ e) (h : 2 ^ e ≤ x) :
    2 ^ e ≤ nearestDouble x := by
  rw [two_zpow_eq_mul he] at h ⊢
  have hle := roundHalfEven_mono ((le_div_iff₀ (lastBit_pos x)).mpr h)
  rw [roundHalfEven_intCast] at hle
  exact mul_le_mul_of_nonneg_right (Int.cast_le.mpr hle) (lastBit_pos x).le

lemma nearestDouble_mono_of_pos (hx : 0 < x) (h : x ≤ y) : nearestDouble x ≤ nearestDouble y := by
  rcases (lastBit_mono hx h).eq_or_lt with heq | hlt
  · rw [nearestDouble, nearestDouble, heq]
    have hle := roundHalfEven_mono (div_le_div_of_nonneg_right h (lastBit_pos y).le)
    exact mul_le_mul_of_nonneg_right (Int.cast_le.mpr hle) (lastBit_pos y).le
  · -- a power of two is between them, and both round to its side
    have hy : 0 < y := hx.trans_le h
    have hL : lastBit y = Int.log 2 y - 52 := by
      have hmax : -1074 < lastBit y := (le_lastBit x).trans_lt hlt
      rw [lastBit, abs_of_pos hy] at hmax ⊢
      omega
    set L := Int.log 2 y with hLdef
    have hxL : x ≤ 2 ^ L := by
      have hlog : Int.log 2 x < L := by
        have hlt' : Int.log 2 x - 52 < L - 52 := by
          refine lt_of_le_of_lt ?_ (hL ▸ hlt)
          rw [lastBit, abs_of_pos hx]
          exact le_max_left _ _
        omega
      have hpow := (Int.lt_zpow_iff_log_lt one_lt_two hx).mpr hlog
      rw [Nat.cast_ofNat] at hpow
      exact hpow.le
    have hyL : 2 ^ L ≤ y := by
      have hpow := Int.zpow_log_le_self one_lt_two hy
      rwa [Nat.cast_ofNat] at hpow
    calc nearestDouble x ≤ 2 ^ L := nearestDouble_le_two_zpow (by omega) hxL
      _ ≤ nearestDouble y := two_zpow_le_nearestDouble (by omega) hyL

lemma nearestDouble_nonneg (hx : 0 ≤ x) : 0 ≤ nearestDouble x := by
  have hle := roundHalfEven_mono (div_nonneg hx (lastBit_pos x).le)
  rw [← Int.cast_zero, roundHalfEven_intCast] at hle
  exact mul_nonneg (Int.cast_nonneg hle) (lastBit_pos x).le

lemma nearestDouble_mono (h : x ≤ y) : nearestDouble x ≤ nearestDouble y := by
  rcases lt_or_ge 0 x with hx | hx
  · exact nearestDouble_mono_of_pos hx h
  rcases lt_or_ge y 0 with hy | hy
  · have hneg := nearestDouble_mono_of_pos (neg_pos.mpr hy) (neg_le_neg h)
    rw [nearestDouble_neg, nearestDouble_neg] at hneg
    exact neg_le_neg_iff.mp hneg
  · have hxneg := nearestDouble_nonneg (neg_nonneg.mpr hx)
    rw [nearestDouble_neg] at hxneg
    exact (neg_nonneg.mp hxneg).trans (nearestDouble_nonneg hy)

/-- The mantissa has 53 bits, or it is the power of two after them. -/
lemma abs_roundHalfEven_le (x : K) : |roundHalfEven (x / 2 ^ lastBit x)| ≤ 2 ^ 53 := by
  have hlt : |x| ≤ 2 ^ (53 : ℤ) * 2 ^ lastBit x := by
    have hlog := Int.lt_zpow_succ_log_self one_lt_two |x|
    rw [Nat.cast_ofNat] at hlog
    have hle : Int.log 2 |x| - 52 ≤ lastBit x := le_max_left _ _
    rw [← zpow_add₀ two_ne_zero]
    exact hlog.le.trans (zpow_le_zpow_right₀ one_le_two (by omega))
  have hdiv : |x / 2 ^ lastBit x| ≤ ((2 ^ 53 : ℤ) : K) := by
    rw [abs_div, abs_of_pos (lastBit_pos x), div_le_iff₀ (lastBit_pos x)]
    exact_mod_cast hlt
  obtain ⟨hlo, hhi⟩ := abs_le.mp hdiv
  have hhi' := roundHalfEven_mono hhi
  have hlo' := roundHalfEven_mono hlo
  rw [roundHalfEven_intCast] at hhi'
  rw [← Int.cast_neg, roundHalfEven_intCast] at hlo'
  exact abs_le.mpr ⟨hlo', hhi'⟩

/-- A rounded number has a mantissa of 53 bits. -/
lemma exists_mantissa (x : K) :
    ∃ k e : ℤ, |k| < 2 ^ 53 ∧ -1074 ≤ e ∧ nearestDouble x = k * 2 ^ e := by
  rcases (abs_roundHalfEven_le x).lt_or_eq with hlt | heq
  · exact ⟨_, _, hlt, le_lastBit x, rfl⟩
  · have he : -1074 ≤ 53 + lastBit x := by
      have := le_lastBit x
      omega
    have hpow : (2 : K) ^ (53 + lastBit x) = 2 ^ 53 * 2 ^ lastBit x := by
      rw [zpow_add₀ two_ne_zero]
      norm_cast
    rcases (abs_eq (by norm_num)).mp heq with hk | hk
    · refine ⟨1, 53 + lastBit x, by norm_num, he, ?_⟩
      rw [nearestDouble, hk, hpow]
      norm_num
    · refine ⟨-1, 53 + lastBit x, by norm_num, he, ?_⟩
      rw [nearestDouble, hk, hpow]
      norm_num

lemma nearestDouble_nearestDouble (x : K) : nearestDouble (nearestDouble x) = nearestDouble x := by
  obtain ⟨k, e, hk, he, hx⟩ := exists_mantissa x
  exact nearestDouble_of_mantissa hk he hx

/-- Two doubles that differ do so by the smallest one at least. -/
lemma smallest_le_sub (hx : nearestDouble x = x) (hy : nearestDouble y = y) (h : y < x) :
    2 ^ (-1074 : ℤ) ≤ x - y := by
  have hmul {z : K} (hz : nearestDouble z = z) : ∃ k : ℤ, z = k * 2 ^ (-1074 : ℤ) := by
    obtain ⟨k, e, -, he, hk⟩ := exists_mantissa z
    rw [hz] at hk
    refine ⟨k * 2 ^ (e + 1074).toNat, ?_⟩
    have hsplit : (2 : K) ^ e = 2 ^ (e + 1074).toNat * 2 ^ (-1074 : ℤ) := by
      rw [← zpow_natCast, ← zpow_add₀ two_ne_zero]
      congr 1
      omega
    rw [hk, hsplit]
    push_cast
    ring
  obtain ⟨k, hk⟩ := hmul hx
  obtain ⟨l, hl⟩ := hmul hy
  have hpos : (0 : K) < 2 ^ (-1074 : ℤ) := zpow_pos two_pos _
  rw [hk, hl] at h ⊢
  have hkl : l + 1 ≤ k := Int.cast_lt.mp (lt_of_mul_lt_mul_right h hpos.le)
  have hcast : (1 : K) ≤ k - l := by
    have : (l : K) + 1 ≤ k := by exact_mod_cast hkl
    linarith
  rw [← sub_mul]
  exact le_mul_of_one_le_left hpos.le hcast

/-- Doubling is exact. -/
lemma nearestDouble_two_mul (hx : nearestDouble x = x) : nearestDouble (2 * x) = 2 * x := by
  obtain ⟨k, e, hk, he, heq⟩ := exists_mantissa x
  rw [hx] at heq
  refine nearestDouble_of_mantissa (e := e + 1) hk (by omega) ?_
  rw [heq, zpow_add_one₀ two_ne_zero]
  ring

/-- A double below `2 ^ 1024` is the largest double at most. -/
lemma le_largest (hx : nearestDouble x = x) (h : x < 2 ^ (1024 : ℤ)) :
    x ≤ (2 ^ 53 - 1) * 2 ^ (971 : ℤ) := by
  obtain ⟨k, e, hk, he, hke⟩ := exists_mantissa x
  rw [hx] at hke
  have hbit : (0 : K) < 2 ^ (971 : ℤ) := zpow_pos two_pos _
  have htop : (2 : K) ^ (1024 : ℤ) = 2 ^ 53 * 2 ^ (971 : ℤ) := by
    rw [← zpow_natCast, ← zpow_add₀ two_ne_zero]
    norm_num
  rcases le_or_gt 971 e with hle | hlt
  · have hsplit : (2 : K) ^ e = 2 ^ (e - 971).toNat * 2 ^ (971 : ℤ) := by
      rw [← zpow_natCast, ← zpow_add₀ two_ne_zero]
      congr 1
      omega
    rw [htop, hke, hsplit, ← mul_assoc] at h
    have hlt := lt_of_mul_lt_mul_right h hbit.le
    have hint : k * 2 ^ (e - 971).toNat < 2 ^ 53 := by exact_mod_cast hlt
    have hcast : (k : K) * 2 ^ (e - 971).toNat ≤ 2 ^ 53 - 1 := by
      have : k * 2 ^ (e - 971).toNat ≤ 2 ^ 53 - 1 := by omega
      exact_mod_cast this
    rw [hke, hsplit, ← mul_assoc]
    exact mul_le_mul_of_nonneg_right hcast hbit.le
  · have hk' : (k : K) ≤ 2 ^ 53 := by exact_mod_cast (le_abs_self k).trans hk.le
    have hhalf : (2 : K) ^ (970 : ℤ) * 2 = 2 ^ (971 : ℤ) := (zpow_add_one₀ two_ne_zero _).symm
    have hpos : (0 : K) < 2 ^ (970 : ℤ) := zpow_pos two_pos _
    calc x = k * 2 ^ e := hke
      _ ≤ 2 ^ 53 * 2 ^ e := mul_le_mul_of_nonneg_right hk' (zpow_pos two_pos _).le
      _ ≤ 2 ^ 53 * 2 ^ (970 : ℤ) :=
        mul_le_mul_of_nonneg_left (zpow_le_zpow_right₀ one_le_two (by omega)) (by norm_num)
      _ ≤ (2 ^ 53 - 1) * 2 ^ (971 : ℤ) := by
        rw [← hhalf]
        generalize (2 : K) ^ (970 : ℤ) = z at hpos
        linarith

/-- Adding one does not overflow. -/
lemma nearestDouble_add_one_lt (hx : nearestDouble x = x) (h : x < 2 ^ (1024 : ℤ)) :
    nearestDouble (x + 1) < 2 ^ (1024 : ℤ) := by
  have hbit : (0 : K) < 2 ^ (971 : ℤ) := zpow_pos two_pos _
  have htop : (2 : K) ^ (1024 : ℤ) = 2 ^ 53 * 2 ^ (971 : ℤ) := by
    rw [← zpow_natCast, ← zpow_add₀ two_ne_zero]
    norm_num
  have hmid : (2 : K) ^ (1023 : ℤ) = 2 ^ 52 * 2 ^ (971 : ℤ) := by
    rw [← zpow_natCast, ← zpow_add₀ two_ne_zero]
    norm_num
  set y : K := (2 ^ 53 - 3 / 4) * 2 ^ (971 : ℤ) with hy
  have hlast : lastBit y = 971 := by
    refine lastBit_of_between (e := 1023) (by norm_num) ?_ ?_
    · rw [hmid]
      exact mul_le_mul_of_nonneg_right (by norm_num) hbit.le
    · show y < 2 ^ (1024 : ℤ)
      rw [htop]
      exact mul_lt_mul_of_pos_right (by norm_num) hbit
  have hround : nearestDouble y = (2 ^ 53 - 1) * 2 ^ (971 : ℤ) := by
    have hdiv : y / 2 ^ (971 : ℤ) = 2 ^ 53 - 3 / 4 := by
      rw [hy, mul_div_cancel_right₀ _ hbit.ne']
    have hfloor : ⌊(2 ^ 53 - 3 / 4 : K)⌋ = 2 ^ 53 - 1 := by
      rw [Int.floor_eq_iff]
      norm_num
    rw [nearestDouble, hlast, hdiv, roundHalfEven, hfloor, if_pos (by norm_num)]
    norm_num
  have hle : x + 1 ≤ y := by
    have hfour : (2 : K) ^ (2 : ℤ) ≤ 2 ^ (971 : ℤ) := zpow_le_zpow_right₀ one_le_two (by norm_num)
    have hx' := le_largest hx h
    rw [hy]
    generalize (2 : K) ^ (971 : ℤ) = z at hfour hx' ⊢
    norm_num at hfour
    linarith
  calc nearestDouble (x + 1) ≤ nearestDouble y := nearestDouble_mono hle
    _ < 2 ^ (1024 : ℤ) := by
      rw [hround, htop]
      exact mul_lt_mul_of_pos_right (by norm_num) hbit

end

/-! ### Doubles -/

namespace ExtFloat

section

variable {K : Type*} [Field K] [LinearOrder K]

/-- `x * ∞` -/
def timesInf : ExtFloat K → ExtFloat K
  | fin x => if 0 < x then posInf else if x < 0 then negInf else nan
  | x => x

/-- IEEE multiplication: an infinity times zero is NaN. -/
protected def mul : ExtFloat K → ExtFloat K → ExtFloat K
  | fin x, fin y => fin (x * y)
  | nan, _ | _, nan => nan
  | posInf, y => y.timesInf
  | x, posInf => x.timesInf
  | negInf, y => (-y).timesInf
  | x, negInf => (-x).timesInf

/-- IEEE division by a zero without sign. -/
protected def div : ExtFloat K → ExtFloat K → ExtFloat K
  | nan, _ | _, nan => nan
  | fin x, fin y => if y = 0 then (fin x).timesInf else fin (x / y)
  | fin _, _ => fin 0
  | posInf, fin y => if y < 0 then negInf else posInf
  | negInf, fin y => if y < 0 then posInf else negInf
  | _, _ => nan

/-- `x % y` of Python -/
protected def mod [FloorRing K] : ExtFloat K → ExtFloat K → ExtFloat K
  | fin x, fin y => if y = 0 then nan else fin (x - y * ⌊x / y⌋)
  | fin x, posInf => if 0 ≤ x then fin x else posInf
  | fin x, negInf => if x ≤ 0 then fin x else negInf
  | _, _ => nan

end

end ExtFloat

/-- From here on numbers round to infinity. -/
noncomputable def overflow : ℝ := 2 ^ (1024 : ℤ)

lemma neg_overflow_lt {x : ℝ} (hx : 0 ≤ x) : -overflow < x := by
  have hpos : 0 < overflow := zpow_pos two_pos _
  linarith

/-- A double: NaN, an infinity or a finite number that rounding leaves alone. -/
structure Binary64 where
  val : ExtFloat ℝ
  rounded : ∀ x, val = .fin x → nearestDouble x = x
  range : ∀ x, val = .fin x → |x| < overflow

namespace Binary64

open ExtFloat

/-- The nearest double, with infinities from `overflow` on. -/
noncomputable def ofReal (x : ℝ) : Binary64 :=
  if h : |nearestDouble x| < overflow then
    { val := fin (nearestDouble x)
      rounded := by
        rintro _ ⟨⟩
        exact nearestDouble_nearestDouble x
      range := by
        rintro _ ⟨⟩
        exact h }
  else if 0 < x then ⟨posInf, nofun, nofun⟩
  else ⟨negInf, nofun, nofun⟩

noncomputable def round : ExtFloat ℝ → Binary64
  | fin x => ofReal x
  | posInf => ⟨posInf, nofun, nofun⟩
  | negInf => ⟨negInf, nofun, nofun⟩
  | nan => ⟨nan, nofun, nofun⟩

def IsInf (a : Binary64) : Prop := a.val = posInf ∨ a.val = negInf

def IsFinite (a : Binary64) : Prop := ∃ x, a.val = fin x

noncomputable instance : Add Binary64 := ⟨fun a b => round (a.val + b.val)⟩
noncomputable instance : Sub Binary64 := ⟨fun a b => round (a.val - b.val)⟩
noncomputable instance : Mul Binary64 := ⟨fun a b => round (a.val.mul b.val)⟩
noncomputable instance : Neg Binary64 := ⟨fun a => round (-a.val)⟩

/-- `math.sqrt` -/
noncomputable def sqrt (a : Binary64) : Except PyError Binary64 :=
  match a.val with
  | fin x => if x < 0 then .error .valueError else .ok (ofReal √x)
  | negInf => .error .valueError
  | _ => .ok a

/-- The functions of the C library that are not given by rounding. An angle is not infinite. -/
class Libm where
  sin : Binary64 → Binary64
  cos : Binary64 → Binary64
  atan2 : Binary64 → Binary64 → Binary64
  not_isInf_atan2 : ∀ y x, ¬(atan2 y x).IsInf

open Classical in
/-- `math.sin` and `math.cos`: infinities are outside their domain. -/
noncomputable def periodic (f : Binary64 → Binary64) (a : Binary64) : Except PyError Binary64 :=
  if a.IsInf then .error .valueError else .ok (f a)

/-- `int(math.floor(x))` -/
noncomputable def floor (a : Binary64) : Except PyError ℤ :=
  match a.val with
  | fin x => .ok ⌊x⌋
  | nan => .error .valueError
  | _ => .error .overflowError

noncomputable instance [Libm] : PyFloat Binary64 where
  lit q := ofReal q
  lt a b := a.val.lt b.val
  le a b := a.val.lt b.val || (decide (a.val = b.val) && decide (a.val ≠ nan))
  abs a := round a.val.abs
  mod a b := round (a.val.mod b.val)
  div a b := if b.val = fin 0 then .error .zeroDivisionError else .ok (round (a.val.div b.val))
  npDiv a b := round (a.val.div b.val)
  sqrt := sqrt
  npSqrt a := match a.sqrt with
    | .ok r => r
    | .error _ => round nan
  sin := periodic Libm.sin
  cos := periodic Libm.cos
  atan2 := Libm.atan2
  floor := floor

/-! ### Bounds -/

variable {a b : Binary64} {u v w x : ℝ}

/-- `a` is a number that is `v` at least, or the positive infinity. -/
def AtLeast (v : ℝ) (a : Binary64) : Prop := a.val = posInf ∨ ∃ x, a.val = fin x ∧ v ≤ x

/-- `a` is a number that is `v` at most, or the negative infinity. -/
def AtMost (v : ℝ) (a : Binary64) : Prop := a.val = negInf ∨ ∃ x, a.val = fin x ∧ x ≤ v

/-- `a` is `v` at least, or NaN. -/
def NotBelow (v : ℝ) (a : Binary64) : Prop := a.val = nan ∨ AtLeast v a

lemma AtLeast.mono (h : AtLeast v a) (hw : w ≤ v) : AtLeast w a := by
  rcases h with h | ⟨x, h, hx⟩
  · exact Or.inl h
  · exact Or.inr ⟨x, h, hw.trans hx⟩

lemma AtMost.mono (h : AtMost v a) (hw : v ≤ w) : AtMost w a := by
  rcases h with h | ⟨x, h, hx⟩
  · exact Or.inl h
  · exact Or.inr ⟨x, h, hx.trans hw⟩

lemma atLeast_of_fin (h : a.val = fin x) : AtLeast x a := Or.inr ⟨x, h, le_rfl⟩

/-- A bound that is a double is one after rounding. -/
lemma atLeast_ofReal (hw : nearestDouble w = w) (hlo : -overflow < w) (h : w ≤ x) :
    AtLeast w (ofReal x) := by
  have hle : w ≤ nearestDouble x := hw ▸ nearestDouble_mono h
  simp only [ofReal]
  split_ifs with hfin hpos
  · exact Or.inr ⟨_, rfl, hle⟩
  · exact Or.inl rfl
  · exfalso
    have hx : nearestDouble x ≤ 0 := by
      have := nearestDouble_mono (not_lt.mp hpos)
      rwa [nearestDouble_zero] at this
    rw [abs_of_nonpos hx] at hfin
    linarith

/-- A number between two doubles is rounded to one between them. -/
lemma ofReal_between (hu : nearestDouble u = u) (hv : nearestDouble v = v) (hlo : -overflow < u)
    (hhi : v < overflow) (hux : u ≤ x) (hxv : x ≤ v) :
    ∃ y, (ofReal x).val = fin y ∧ u ≤ y ∧ y ≤ v := by
  have hle : u ≤ nearestDouble x := hu ▸ nearestDouble_mono hux
  have hge : nearestDouble x ≤ v := hv ▸ nearestDouble_mono hxv
  refine ⟨nearestDouble x, ?_, hle, hge⟩
  rw [ofReal, dif_pos (abs_lt.mpr ⟨hlo.trans_le hle, hge.trans_lt hhi⟩)]

lemma ofReal_val (hx : nearestDouble x = x) (hlt : |x| < overflow) : (ofReal x).val = fin x := by
  rw [ofReal, dif_pos (hx.symm ▸ hlt)]
  exact congrArg fin hx

lemma AtLeast.add (ha : AtLeast u a) (hb : AtLeast v b) (hw : nearestDouble w = w)
    (hlo : -overflow < w) (h : w ≤ u + v) : AtLeast w (a + b) := by
  have hsum : a + b = round (a.val + b.val) := rfl
  rw [hsum]
  rcases ha with ha | ⟨x, ha, hx⟩ <;> rcases hb with hb | ⟨y, hb, hy⟩ <;> rw [ha, hb]
  · exact Or.inl rfl
  · exact Or.inl rfl
  · exact Or.inl rfl
  · exact atLeast_ofReal hw hlo (h.trans (add_le_add hx hy))

lemma AtLeast.sub (ha : AtLeast u a) (hb : AtMost v b) (hw : nearestDouble w = w)
    (hlo : -overflow < w) (h : w ≤ u - v) : AtLeast w (a - b) := by
  have hsub : a - b = round (a.val + -b.val) := rfl
  rw [hsub]
  rcases ha with ha | ⟨x, ha, hx⟩ <;> rcases hb with hb | ⟨y, hb, hy⟩ <;> rw [ha, hb]
  · exact Or.inl rfl
  · exact Or.inl rfl
  · exact Or.inl rfl
  · exact atLeast_ofReal hw hlo (by rw [← sub_eq_add_neg]; linarith)

/-- A positive sum does not round to zero. -/
lemma AtLeast.add_pos (ha : AtLeast u a) (hb : b.val = fin x) (h : -x < u) :
    AtLeast (2 ^ (-1074 : ℤ)) (a + b) := by
  have hsmall : nearestDouble (2 ^ (-1074 : ℤ) : ℝ) = 2 ^ (-1074 : ℤ) :=
    nearestDouble_two_zpow le_rfl
  have hlo : -overflow < (2 ^ (-1074 : ℤ) : ℝ) := by
    have : (0 : ℝ) < 2 ^ (-1074 : ℤ) := zpow_pos two_pos _
    have : (0 : ℝ) < overflow := pow_pos two_pos _
    linarith
  have hsum : a + b = round (a.val + b.val) := rfl
  rw [hsum]
  rcases ha with ha | ⟨y, ha, hy⟩ <;> rw [ha, hb]
  · exact Or.inl rfl
  · have hneg : nearestDouble (-x) = -x := by rw [nearestDouble_neg, b.rounded x hb]
    have hle := smallest_le_sub (a.rounded y ha) hneg (h.trans_le hy)
    exact atLeast_ofReal hsmall hlo (hle.trans_eq (sub_neg_eq_add y x))

lemma NotBelow.add (ha : NotBelow u a) (hb : NotBelow v b) (hw : nearestDouble w = w)
    (hlo : -overflow < w) (h : w ≤ u + v) : NotBelow w (a + b) := by
  have hsum : a + b = round (a.val + b.val) := rfl
  rcases ha with ha | ha
  · left
    rw [hsum, ha]
    cases b.val <;> rfl
  rcases hb with hb | hb
  · left
    rw [hsum, hb]
    cases a.val <;> rfl
  · exact Or.inr (ha.add hb hw hlo h)

/-- Squares are not negative. -/
lemma notBelow_sq (a : Binary64) : NotBelow 0 (a * a) := by
  have hmul : a * a = round (a.val.mul a.val) := rfl
  rw [hmul]
  cases ha : a.val with
  | fin x => exact Or.inr (atLeast_ofReal nearestDouble_zero (neg_overflow_lt le_rfl)
      (mul_self_nonneg x))
  | posInf => exact Or.inr (Or.inl rfl)
  | negInf => exact Or.inr (Or.inl rfl)
  | nan => exact Or.inl rfl

lemma NotBelow.sq (ha : NotBelow v a) (hv : 0 ≤ v) (hw : nearestDouble w = w)
    (hlo : -overflow < w) (h : w ≤ v * v) : NotBelow w (a * a) := by
  have hmul : a * a = round (a.val.mul a.val) := rfl
  rw [hmul]
  rcases ha with ha | ha | ⟨x, ha, hx⟩ <;> rw [ha]
  · exact Or.inl rfl
  · exact Or.inr (Or.inl rfl)
  · exact Or.inr (atLeast_ofReal hw hlo (h.trans (mul_self_le_mul_self hv hx)))

/-- A multiple with a positive factor. -/
lemma NotBelow.const_mul (hb : b.val = fin x) (hx : 0 < x) (ha : NotBelow v a)
    (hw : nearestDouble w = w) (hlo : -overflow < w) (h : w ≤ x * v) : NotBelow w (b * a) := by
  have hmul : b * a = round (b.val.mul a.val) := rfl
  rw [hmul, hb]
  rcases ha with ha | ha | ⟨y, ha, hy⟩ <;> rw [ha]
  · exact Or.inl rfl
  · refine Or.inr (Or.inl ?_)
    simp [ExtFloat.mul, timesInf, hx, round]
  · exact Or.inr (atLeast_ofReal hw hlo (h.trans (mul_le_mul_of_nonneg_left hy hx.le)))

lemma NotBelow.sqrt (ha : NotBelow v a) (hv : 0 ≤ v) (hw : nearestDouble w = w)
    (hlo : -overflow < w) (h : w ≤ √v) : ∃ r, a.sqrt = .ok r ∧ NotBelow w r := by
  rcases ha with ha | ha | ⟨x, ha, hx⟩
  · exact ⟨a, by rw [Binary64.sqrt, ha], Or.inl ha⟩
  · exact ⟨a, by rw [Binary64.sqrt, ha], Or.inr (Or.inl ha)⟩
  · refine ⟨ofReal √x, ?_, Or.inr (atLeast_ofReal hw hlo (h.trans (Real.sqrt_le_sqrt hx)))⟩
    rw [Binary64.sqrt, ha]
    exact if_neg (hv.trans hx).not_gt

lemma NotBelow.ne_zero (ha : NotBelow v a) (hv : 0 < v) : a.val ≠ fin 0 := by
  rcases ha with ha | ha | ⟨x, ha, hx⟩ <;> rw [ha]
  · nofun
  · nofun
  · rintro ⟨⟩
    linarith

lemma AtLeast.add_one (ha : AtLeast v a) (hv : 0 < v) (hfin : a.val ≠ posInf) (hb : b.val = fin 1) :
    ∃ x, (a + b).val = fin x ∧ 1 ≤ x := by
  rcases ha with ha | ⟨x, ha, hx⟩
  · exact absurd ha hfin
  have hone : nearestDouble (1 : ℝ) = 1 := nearestDouble_two_zpow (e := 0) (by norm_num)
  have hle : 1 ≤ nearestDouble (x + 1) := by
    conv_lhs => rw [← hone]
    exact nearestDouble_mono (by linarith)
  have hlt := nearestDouble_add_one_lt (a.rounded x ha) (lt_of_abs_lt (a.range x ha))
  refine ⟨nearestDouble (x + 1), ?_, hle⟩
  have hsum : a + b = round (a.val + b.val) := rfl
  rw [hsum, ha, hb]
  show (ofReal (x + 1)).val = _
  rw [ofReal, dif_pos (by rwa [abs_of_pos (one_pos.trans_le hle)])]

/-! ### Literals -/

section

variable [Libm] {q : ℚ}

lemma lit_val {k e : ℤ} (hk : |k| < 2 ^ 53) (he : -1074 ≤ e) (hq : (q : ℝ) = k * 2 ^ e)
    (hlt : |(q : ℝ)| ≤ 2) : (PyFloat.lit q : Binary64).val = fin (q : ℝ) := by
  refine ofReal_val (nearestDouble_of_mantissa hk he hq) (hlt.trans_lt ?_)
  exact (zpow_one (2 : ℝ)).symm.trans_lt (zpow_lt_zpow_right₀ one_lt_two (by norm_num))

end

/-! ### Exceptional values -/

lemma add_of_nan (h : a.val = nan ∨ b.val = nan) : (a + b).val = nan := by
  have hsum : a + b = round (a.val + b.val) := rfl
  rw [hsum]
  rcases h with h | h <;> rw [h]
  · cases b.val <;> rfl
  · cases a.val <;> rfl

lemma sub_of_nan (h : a.val = nan ∨ b.val = nan) : (a - b).val = nan := by
  have hsub : a - b = round (a.val + -b.val) := rfl
  rw [hsub]
  rcases h with h | h <;> rw [h]
  · cases b.val <;> rfl
  · cases a.val <;> rfl

lemma mul_of_nan (h : b.val = nan) : (a * b).val = nan := by
  have hmul : a * b = round (a.val.mul b.val) := rfl
  rw [hmul, h]
  cases a.val <;> rfl

lemma div_of_nan [Libm] (h : a.val = nan) : (PyFloat.npDiv a b).val = nan := by
  show (round (a.val.div b.val)).val = nan
  rw [h]
  cases b.val <;> rfl

lemma neg_isInf (h : (-a).IsInf) : a.IsInf := by
  have hneg : -a = round (-a.val) := rfl
  rw [IsInf, hneg] at h
  cases ha : a.val with
  | fin x =>
    have hx : nearestDouble (-x) = -x := by rw [nearestDouble_neg, a.rounded x ha]
    have hval : (round (-a.val)).val = fin (-x) := by
      rw [ha]
      exact ofReal_val hx (by rw [abs_neg]; exact a.range x ha)
    rw [hval] at h
    rcases h with h | h
    · cases h
    · cases h
  | posInf => exact Or.inl ha
  | negInf => exact Or.inr ha
  | nan =>
    rw [ha] at h
    rcases h with h | h
    · cases h
    · cases h

lemma sub_of_posInf (h : a.val = posInf ∨ a.val = nan) :
    (a - b).val = posInf ∨ (a - b).val = nan := by
  rcases h with h | h
  · have hsub : a - b = round (a.val + -b.val) := rfl
    rw [hsub, h]
    cases b.val with
    | posInf | nan => exact Or.inr rfl
    | fin x | negInf => exact Or.inl rfl
  · exact Or.inr (sub_of_nan (Or.inl h))

lemma sub_of_negInf (ha : a.val = negInf) (hb : b.val = negInf) : (a - b).val = nan := by
  have hsub : a - b = round (a.val + -b.val) := rfl
  rw [hsub, ha, hb]
  rfl

/-! ### Exact results -/

lemma lit_zero_val [Libm] : (PyFloat.lit 0 : Binary64).val = fin 0 := by
  simpa using lit_val (q := 0) (k := 0) (e := 0) (by norm_num) (by norm_num) (by norm_num)
    (by norm_num)

lemma lit_one_val [Libm] : (PyFloat.lit 1 : Binary64).val = fin 1 := by
  simpa using lit_val (q := 1) (k := 1) (e := 0) (by norm_num) (by norm_num) (by norm_num)
    (by norm_num)

/-- Dividing by one is exact. -/
lemma div_one_val [Libm] (ha : a.val = fin x) (hb : b.val = fin 1) :
    (PyFloat.npDiv a b).val = fin x := by
  show (round (a.val.div b.val)).val = fin x
  rw [ha, hb, ExtFloat.div, if_neg one_ne_zero, div_one]
  exact ofReal_val (a.rounded x ha) (a.range x ha)

lemma add_val {y : ℝ} (ha : a.val = fin x) (hb : b.val = fin y)
    (hround : nearestDouble (x + y) = x + y) (hlt : |x + y| < overflow) :
    (a + b).val = fin (x + y) := by
  have hsum : a + b = round (a.val + b.val) := rfl
  rw [hsum, ha, hb]
  exact ofReal_val hround hlt

lemma mul_val {y : ℝ} (ha : a.val = fin x) (hb : b.val = fin y)
    (hround : nearestDouble (x * y) = x * y) (hlt : |x * y| < overflow) :
    (a * b).val = fin (x * y) := by
  have hmul : a * b = round (a.val.mul b.val) := rfl
  rw [hmul, ha, hb]
  exact ofReal_val hround hlt

/-! ### Zero -/

lemma ofReal_zero_val : (ofReal 0).val = fin 0 :=
  ofReal_val nearestDouble_zero (by simpa using neg_overflow_lt le_rfl)

/-- Functions of the C library that are right at zero. -/
noncomputable abbrev Libm.atZero : Libm where
  sin _ := ofReal 0
  cos _ := ofReal 1
  atan2 _ _ := ofReal 0
  not_isInf_atan2 := by
    rintro y x (h | h)
    · cases ofReal_zero_val.symm.trans h
    · cases ofReal_zero_val.symm.trans h

lemma sub_of_zero (ha : a.val = fin 0) (hb : b.val = fin 0) : (a - b).val = fin 0 := by
  have hsub : a - b = round (a.val + -b.val) := rfl
  rw [hsub, ha, hb]
  show (ofReal (0 + -0)).val = fin 0
  rw [neg_zero, add_zero]
  exact ofReal_zero_val

lemma abs_zero_lt_overflow : |(0 : ℝ)| < overflow := by
  simpa using neg_overflow_lt le_rfl

/-- Adding zero is exact. -/
lemma add_zero_val (ha : a.val = fin x) (hb : b.val = fin 0) : (a + b).val = fin x := by
  have hsum := add_val (x := x) (y := 0) ha hb
  rw [add_zero] at hsum
  exact hsum (a.rounded x ha) (a.range x ha)

lemma zero_add_val (ha : a.val = fin 0) (hb : b.val = fin x) : (a + b).val = fin x := by
  have hsum := add_val (x := 0) (y := x) ha hb
  rw [zero_add] at hsum
  exact hsum (b.rounded x hb) (b.range x hb)

lemma add_of_zero (ha : a.val = fin 0) (hb : b.val = fin 0) : (a + b).val = fin 0 :=
  add_zero_val ha hb

lemma mul_of_zero (ha : a.IsFinite) (hb : b.val = fin 0) : (a * b).val = fin 0 := by
  obtain ⟨x, ha⟩ := ha
  have hmul := mul_val (x := x) (y := 0) ha hb
  rw [mul_zero] at hmul
  exact hmul nearestDouble_zero abs_zero_lt_overflow

lemma div_of_zero [Libm] (ha : a.val = fin 0) (hb : b.val = fin 1) :
    (PyFloat.npDiv a b).val = fin 0 :=
  div_one_val ha hb

end Binary64
