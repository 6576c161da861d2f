import HumanoidNavigation.Numeric.Binary64

/-!
# Single precision

A `Word` is the 32 bits of a number in single precision. `value` is what it stands for, and `encode`
is the word of the nearest such number, the one with an even last bit of two; a zero that is encoded
has no sign. Words are stored as four bytes, the lowest one first.
-/

namespace Binary32

open ExtFloat

attribute [local instance] PyFloat.atLeastTwo_two

abbrev Word := BitVec 32

/-! ### Bytes -/

/-- The word of four bytes. -/
def ofBytes (b₀ b₁ b₂ b₃ : UInt8) : Word :=
  BitVec.ofNat 32 (b₀.toNat + 2 ^ 8 * b₁.toNat + 2 ^ 16 * b₂.toNat + 2 ^ 24 * b₃.toNat)

/-- The bytes of a word. -/
def toBytes (w : Word) : List UInt8 :=
  [UInt8.ofNat w.toNat, UInt8.ofNat (w.toNat / 2 ^ 8), UInt8.ofNat (w.toNat / 2 ^ 16),
    UInt8.ofNat (w.toNat / 2 ^ 24)]

/-- The words of a list of bytes, unless bytes are left over. -/
def words : List UInt8 → Option (List Word)
  | [] => some []
  | b₀ :: b₁ :: b₂ :: b₃ :: bytes => (words bytes).map (ofBytes b₀ b₁ b₂ b₃ :: ·)
  | _ => none

@[simp] lemma length_toBytes (w : Word) : (toBytes w).length = 4 := rfl

@[simp] lemma ofBytes_toNat (b₀ b₁ b₂ b₃ : UInt8) : (ofBytes b₀ b₁ b₂ b₃).toNat =
    b₀.toNat + 2 ^ 8 * b₁.toNat + 2 ^ 16 * b₂.toNat + 2 ^ 24 * b₃.toNat := by
  have h₀ := b₀.toNat_lt
  have h₁ := b₁.toNat_lt
  have h₂ := b₂.toNat_lt
  have h₃ := b₃.toNat_lt
  rw [ofBytes, BitVec.toNat_ofNat, Nat.mod_eq_of_lt (by omega)]

lemma toBytes_ofBytes (b₀ b₁ b₂ b₃ : UInt8) : toBytes (ofBytes b₀ b₁ b₂ b₃) = [b₀, b₁, b₂, b₃] := by
  have h₀ := b₀.toNat_lt
  have h₁ := b₁.toNat_lt
  have h₂ := b₂.toNat_lt
  have h₃ := b₃.toNat_lt
  simp only [toBytes, ofBytes_toNat, List.cons.injEq, and_true, ← UInt8.toNat_inj,
    UInt8.toNat_ofNat']
  omega

lemma ofBytes_of_toBytes (w : Word) : ofBytes (UInt8.ofNat w.toNat) (UInt8.ofNat (w.toNat / 2 ^ 8))
    (UInt8.ofNat (w.toNat / 2 ^ 16)) (UInt8.ofNat (w.toNat / 2 ^ 24)) = w := by
  have hw := w.isLt
  apply BitVec.eq_of_toNat_eq
  simp only [ofBytes_toNat, UInt8.toNat_ofNat']
  omega

lemma words_toBytes_append (w : Word) (bytes : List UInt8) :
    words (toBytes w ++ bytes) = (words bytes).map (w :: ·) := by
  rw [toBytes, List.cons_append, List.cons_append, List.cons_append, List.cons_append,
    List.nil_append, words, ofBytes_of_toBytes]

lemma words_flatMap_toBytes (ws : List Word) : words (ws.flatMap toBytes) = some ws := by
  induction ws with
  | nil => rfl
  | cons w ws ih => rw [List.flatMap_cons, words_toBytes_append, ih, Option.map_some]

lemma flatMap_toBytes_of_words {bytes : List UInt8} {ws : List Word} (h : words bytes = some ws) :
    ws.flatMap toBytes = bytes := by
  induction bytes using words.induct generalizing ws with
  | case1 =>
    obtain rfl := Option.some.inj h
    rfl
  | case2 b₀ b₁ b₂ b₃ bytes ih =>
    rw [words, Option.map_eq_some_iff] at h
    obtain ⟨ws, hws, rfl⟩ := h
    rw [List.flatMap_cons, toBytes_ofBytes, ih hws]
    rfl
  | case3 bytes hnil hcons => simp [words] at h

/-! ### Values -/

/-- The lower 31 bits of the infinity, which follow those of the largest number. -/
def infinity : ℕ := 255 * 2 ^ 23

lemma infinity_eq : infinity = 2139095040 := rfl

/-- The number with the lower 31 bits `m`, in units of the smallest one. -/
def units (m : ℕ) : ℕ := if m < 2 ^ 23 then m else (2 ^ 23 + m % 2 ^ 23) * 2 ^ (m / 2 ^ 23 - 1)

/-- `np.isfinite` -/
def isFinite (w : Word) : Bool := w.toNat % 2 ^ 31 < infinity

section Field

variable {K : Type} [Field K]

/-- The number that a finite word stands for. -/
def number (w : Word) : K :=
  let magnitude : K := units (w.toNat % 2 ^ 31) / 2 ^ 149
  if w.toNat < 2 ^ 31 then magnitude else -magnitude

def value (w : Word) : ExtFloat K :=
  if isFinite w then fin (number w)
  else if infinity < w.toNat % 2 ^ 31 then nan
  else if w.toNat < 2 ^ 31 then posInf
  else negInf

lemma value_of_isFinite {w : Word} (h : isFinite w) : value (K := K) w = fin (number w) := if_pos h

lemma isFinite_of_value {w : Word} {x : K} (h : value w = fin x) :
    isFinite w = true ∧ number w = x := by
  simp only [value] at h
  split_ifs at h with hw
  exact ⟨hw, fin.inj h⟩

end Field

section FloorRing

variable {K : Type} [Field K] [LinearOrder K] [FloorRing K]

/-- The exponent of the last bit of a single near `y`. -/
def shift (y : K) : ℕ := Nat.log 2 ⌊y⌋.toNat - 23

/-- The lower 31 bits of the single next to `y` units, for `y` that is not negative. A carry goes
into the exponent. -/
def magnitude (y : K) : ℕ :=
  min (shift y * 2 ^ 23 + (roundHalfEven (y / 2 ^ shift y)).toNat) infinity

def encode : ExtFloat K → Word
  | fin x => BitVec.ofNat 32 ((if x < 0 then 2 ^ 31 else 0) + magnitude (|x| * 2 ^ 149))
  | posInf => BitVec.ofNat 32 infinity
  | negInf => BitVec.ofNat 32 (2 ^ 31 + infinity)
  | nan => BitVec.ofNat 32 (infinity + 2 ^ 22)

/-- The nearest single. -/
def round (a : ExtFloat K) : ExtFloat K := value (encode a)

end FloorRing

/-! ### Numbers in single precision -/

section

variable {K : Type} [Field K] [LinearOrder K] [IsStrictOrderedRing K] [FloorRing K] {m : ℕ}
  {w : Word} {x y : K}

lemma log_units (hm : 2 ^ 23 ≤ m) : Nat.log 2 (units m) = 22 + m / 2 ^ 23 := by
  have hlt : m % 2 ^ 23 < 2 ^ 23 := Nat.mod_lt _ (by norm_num)
  have hdiv : 1 ≤ m / 2 ^ 23 := (Nat.one_le_div_iff (by norm_num)).mpr hm
  have hpow : 2 ^ (22 + m / 2 ^ 23) = 2 ^ 23 * 2 ^ (m / 2 ^ 23 - 1) := by
    rw [← pow_add]
    congr 1
    omega
  rw [units, if_neg (by omega)]
  apply Nat.log_eq_of_pow_le_of_lt_pow
  · rw [hpow]
    exact Nat.mul_le_mul_right _ (by omega)
  · rw [pow_succ 2 (22 + m / 2 ^ 23), hpow, mul_right_comm]
    exact Nat.mul_lt_mul_of_pos_right (by omega) (by positivity)

/-- The numbers of the format stay. -/
lemma magnitude_units (hm : m < infinity) : magnitude (units m : K) = m := by
  have hfloor : ⌊(units m : K)⌋.toNat = units m := by
    rw [Int.floor_natCast, Int.toNat_natCast]
  by_cases hsmall : m < 2 ^ 23
  · have hunits : units m = m := if_pos hsmall
    have hlog : Nat.log 2 m < 23 ∨ m = 0 := by
      rcases Nat.eq_zero_or_pos m with h | h
      · exact Or.inr h
      · exact Or.inl (Nat.log_lt_of_lt_pow h.ne' hsmall)
    have hshift : shift (units m : K) = 0 := by
      rw [shift, hfloor, hunits]
      rcases hlog with h | rfl
      · omega
      · simp
    rw [magnitude, hshift, hunits, pow_zero, div_one, ← Int.cast_natCast, roundHalfEven_intCast]
    omega
  · have hdiv : 1 ≤ m / 2 ^ 23 := (Nat.one_le_div_iff (by norm_num)).mpr (not_lt.mp hsmall)
    have hshift : shift (units m : K) = m / 2 ^ 23 - 1 := by
      rw [shift, hfloor, log_units (not_lt.mp hsmall)]
      omega
    have hmantissa : (units m : K) / 2 ^ (m / 2 ^ 23 - 1) = ((2 ^ 23 + m % 2 ^ 23 : ℕ) : ℤ) := by
      rw [units, if_neg hsmall, Int.cast_natCast, Nat.cast_mul, Nat.cast_pow, Nat.cast_ofNat]
      exact mul_div_cancel_right₀ _ (pow_ne_zero _ two_ne_zero)
    rw [magnitude, hshift, hmantissa, roundHalfEven_intCast, Int.toNat_natCast]
    omega

omit [IsStrictOrderedRing K] in
lemma magnitude_le (y : K) : magnitude y ≤ infinity := min_le_right _ _

omit [IsStrictOrderedRing K] in
lemma encode_toNat (x : K) : (encode (fin x)).toNat =
    (if x < 0 then 2 ^ 31 else 0) + magnitude (|x| * 2 ^ 149) := by
  have hle := magnitude_le (|x| * 2 ^ 149)
  rw [infinity_eq] at hle
  rw [encode, BitVec.toNat_ofNat, Nat.mod_eq_of_lt]
  split_ifs
  · omega
  · omega

omit [IsStrictOrderedRing K] in
lemma encode_mod (x : K) : (encode (fin x)).toNat % 2 ^ 31 = magnitude (|x| * 2 ^ 149) := by
  have hle := magnitude_le (|x| * 2 ^ 149)
  rw [infinity_eq] at hle
  rw [encode_toNat]
  split_ifs
  · omega
  · omega

omit [IsStrictOrderedRing K] in
lemma encode_lt_iff (x : K) : (encode (fin x)).toNat < 2 ^ 31 ↔ ¬x < 0 := by
  have hle := magnitude_le (|x| * 2 ^ 149)
  rw [infinity_eq] at hle
  rw [encode_toNat]
  split_ifs with h
  · simp [h]
  · simp only [h, not_false_eq_true, iff_true]
    omega

omit [IsStrictOrderedRing K] in
/-- The nearest single of a number is this number of units, with the sign. -/
lemma round_fin (h : magnitude (|x| * 2 ^ 149) < infinity) : round (fin x) =
    fin (if x < 0 then -((units (magnitude (|x| * 2 ^ 149)) : K) / 2 ^ 149)
      else (units (magnitude (|x| * 2 ^ 149)) : K) / 2 ^ 149) := by
  have hfin : isFinite (encode (fin x)) := by
    rw [isFinite, encode_mod]
    exact decide_eq_true h
  rw [round, value_of_isFinite hfin, number, encode_mod]
  simp only [encode_lt_iff, ite_not]

lemma abs_number (w : Word) : |(number w : K)| = units (w.toNat % 2 ^ 31) / 2 ^ 149 := by
  have hpos : (0 : K) ≤ units (w.toNat % 2 ^ 31) / 2 ^ 149 := by positivity
  simp only [number]
  split_ifs
  · exact abs_of_nonneg hpos
  · rw [abs_neg, abs_of_nonneg hpos]

lemma units_eq_zero_iff : units m = 0 ↔ m = 0 := by
  rw [units]
  split_ifs with h
  · rfl
  · simp only [Nat.mul_eq_zero, Nat.pow_eq_zero]
    omega

/-- A number of the format stays. -/
lemma round_number (h : isFinite w) : round (fin (number w : K)) = fin (number w) := by
  have hlt : w.toNat % 2 ^ 31 < infinity := of_decide_eq_true h
  have hunits : |(number w : K)| * 2 ^ 149 = units (w.toNat % 2 ^ 31) := by
    rw [abs_number, div_mul_cancel₀ _ (pow_ne_zero _ two_ne_zero)]
  have hmagnitude : magnitude (|(number w : K)| * 2 ^ 149) = w.toNat % 2 ^ 31 := by
    rw [hunits, magnitude_units hlt]
  rw [round_fin (hmagnitude ▸ hlt), hmagnitude]
  congr 1
  rw [← abs_number]
  split_ifs with hneg
  · rw [abs_of_neg hneg, neg_neg]
  · exact abs_of_nonneg (not_lt.mp hneg)

lemma round_value (w : Word) : round (value w : ExtFloat K) = value w := by
  by_cases h : isFinite w
  · rw [value_of_isFinite h, round_number h]
  · simp only [value, if_neg h]
    split_ifs
    · rfl
    · rfl
    · simp [round, encode, value, isFinite, infinity]

/-! ### Small numbers -/

lemma roundHalfEven_pos_iff (hy : 0 ≤ y) : 0 < roundHalfEven y ↔ 1 / 2 < y := by
  have hfloor : 0 ≤ ⌊y⌋ := Int.floor_nonneg.mpr hy
  have hle := Int.floor_le y
  have hlt := Int.lt_floor_add_one y
  rcases hfloor.eq_or_lt with hzero | hpos
  · rw [← hzero] at hle hlt
    simp only [roundHalfEven, ← hzero]
    push_cast at *
    split_ifs with h₁ h₂
    · simp only [lt_irrefl, false_iff]
      linarith
    · simp only [zero_lt_one, true_iff]
      linarith
    · simp only [lt_irrefl, false_iff]
      linarith
  · have hone : (1 : K) ≤ ⌊y⌋ := by exact_mod_cast hpos
    have hround := floor_le_roundHalfEven y
    exact iff_of_true (hpos.trans_le hround) (by linarith)

/-- Half of the smallest number is rounded to zero, and what is above it is not. -/
lemma magnitude_pos_iff (hy : 0 ≤ y) : 0 < magnitude y ↔ 1 / 2 < y := by
  have hdiv : 0 ≤ y / 2 ^ shift y := by positivity
  have hround : 0 ≤ roundHalfEven (y / 2 ^ shift y) :=
    (Int.floor_nonneg.mpr hdiv).trans (floor_le_roundHalfEven _)
  rcases Nat.eq_zero_or_pos (shift y) with h | h
  · rw [← roundHalfEven_pos_iff hy, magnitude, h, pow_zero, div_one, infinity_eq]
    omega
  · have hlog : 2 ^ 1 ≤ ⌊y⌋.toNat := by
      refine Nat.pow_le_of_le_log ?_ ?_
      · rintro hzero
        simp [shift, hzero] at h
      · rw [shift] at h
        omega
    have hfloor : 1 ≤ ⌊y⌋ := by omega
    have hone : (1 : K) ≤ y := by exact_mod_cast Int.le_floor.mp hfloor
    refine iff_of_true ?_ (by linarith)
    rw [magnitude, infinity_eq]
    omega

omit [IsStrictOrderedRing K] in
/-- From the infinity on a number is rounded to it. -/
lemma round_eq_posInf (hx : 0 ≤ x) (h : infinity ≤ magnitude (|x| * 2 ^ 149)) :
    round (fin x) = posInf := by
  have hmagnitude : magnitude (|x| * 2 ^ 149) = infinity := le_antisymm (magnitude_le _) h
  have hfin : ¬isFinite (encode (fin x)) = true := by
    rw [isFinite, encode_mod, hmagnitude]
    decide
  have hsign : (encode (fin x)).toNat < 2 ^ 31 := (encode_lt_iff x).mpr hx.not_gt
  rw [round, value, if_neg hfin, encode_mod, hmagnitude, if_neg (lt_irrefl _), if_pos hsign]

/-- A number that is not negative is rounded to a positive one if it is above half of the
smallest one. -/
lemma zero_lt_round_iff (hx : 0 ≤ x) :
    (fin 0).lt (round (fin x)) = true ↔ 1 / 2 < x * 2 ^ 149 := by
  have hscaled : 0 ≤ |x| * 2 ^ 149 := by positivity
  have hpos := magnitude_pos_iff hscaled
  rw [abs_of_nonneg hx] at hpos
  rw [← hpos]
  rcases lt_or_ge (magnitude (|x| * 2 ^ 149)) infinity with h | h
  · rw [round_fin h, if_neg hx.not_gt, fin_lt_fin, decide_eq_true_eq, abs_of_nonneg hx,
      div_pos_iff_of_pos_right (by positivity), Nat.cast_pos, Nat.pos_iff_ne_zero, ne_eq,
      units_eq_zero_iff, Nat.pos_iff_ne_zero]
  · rw [round_eq_posInf hx h]
    rw [abs_of_nonneg hx, infinity_eq] at h
    simp only [ExtFloat.lt, true_iff]
    omega

end

/-! ### Norms -/

section Real

/-- `x * x` -/
noncomputable def square (a : ExtFloat ℝ) : ExtFloat ℝ := round (a.mul a)

noncomputable def add (a b : ExtFloat ℝ) : ExtFloat ℝ := round (a + b)

noncomputable def sqrt : ExtFloat ℝ → ExtFloat ℝ
  | fin x => if x < 0 then nan else round (fin √x)
  | posInf => posInf
  | _ => nan

/-- The root of the sum of the squares, as it is computed in single precision. -/
noncomputable def norm (x y z : ExtFloat ℝ) : ExtFloat ℝ :=
  sqrt (add (square x) (add (square y) (square z)))

/-- A number of units, or the infinity. -/
def IsMagnitude (a : ExtFloat ℝ) : Prop := a = posInf ∨ ∃ n : ℕ, a = fin ((n : ℝ) / 2 ^ 149)

variable {a b : ExtFloat ℝ} {x y z : ℝ}

lemma isMagnitude_round (hx : 0 ≤ x) : IsMagnitude (round (fin x)) := by
  rcases lt_or_ge (magnitude (|x| * 2 ^ 149)) infinity with h | h
  · rw [round_fin h, if_neg hx.not_gt]
    exact Or.inr ⟨_, rfl⟩
  · exact Or.inl (round_eq_posInf hx h)

lemma zero_lt_units_iff (n : ℕ) : (fin 0).lt (fin ((n : ℝ) / 2 ^ 149)) = true ↔ 0 < n := by
  rw [fin_lt_fin, decide_eq_true_eq, div_pos_iff_of_pos_right (by positivity), Nat.cast_pos]

lemma half_lt_natCast (n : ℕ) : (1 / 2 : ℝ) < n ↔ 0 < n := by
  constructor
  · intro h
    have : (0 : ℝ) < n := by linarith
    exact_mod_cast this
  · intro h
    have : (1 : ℝ) ≤ n := by exact_mod_cast h
    linarith

lemma isMagnitude_add (ha : IsMagnitude a) (hb : IsMagnitude b) : IsMagnitude (add a b) := by
  rcases ha with rfl | ⟨m, rfl⟩ <;> rcases hb with rfl | ⟨n, rfl⟩
  · exact Or.inl rfl
  · exact Or.inl rfl
  · exact Or.inl rfl
  · exact isMagnitude_round (by positivity)

/-- A sum is positive if one of the summands is. -/
lemma zero_lt_add_iff (ha : IsMagnitude a) (hb : IsMagnitude b) :
    (fin 0).lt (add a b) = true ↔ (fin 0).lt a = true ∨ (fin 0).lt b = true := by
  rcases ha with rfl | ⟨m, rfl⟩ <;> rcases hb with rfl | ⟨n, rfl⟩
  · exact iff_of_true rfl (Or.inl rfl)
  · exact iff_of_true rfl (Or.inl rfl)
  · exact iff_of_true rfl (Or.inr rfl)
  · have hsum : ((m : ℝ) / 2 ^ 149 + n / 2 ^ 149) * 2 ^ 149 = ((m + n : ℕ) : ℝ) := by
      push_cast
      field_simp
    rw [add, fin_add_fin, zero_lt_round_iff (by positivity), hsum, half_lt_natCast,
      zero_lt_units_iff, zero_lt_units_iff]
    omega

lemma zero_lt_sqrt_iff (ha : IsMagnitude a) :
    (fin 0).lt (sqrt a) = true ↔ (fin 0).lt a = true := by
  rcases ha with rfl | ⟨n, rfl⟩
  · exact Iff.rfl
  · have hnonneg : (0 : ℝ) ≤ n / 2 ^ 149 := by positivity
    rw [sqrt, if_neg hnonneg.not_gt, zero_lt_round_iff (Real.sqrt_nonneg _), zero_lt_units_iff,
      ← div_lt_iff₀ (by positivity), Real.lt_sqrt (by positivity)]
    constructor
    · intro h
      have hpos : (0 : ℝ) < n / 2 ^ 149 := (by positivity : (0 : ℝ) ≤ _).trans_lt h
      rwa [div_pos_iff_of_pos_right (by positivity), Nat.cast_pos] at hpos
    · intro h
      have hone : (1 : ℝ) ≤ n := by exact_mod_cast h
      calc (1 / 2 / 2 ^ 149 : ℝ) ^ 2 < 1 / 2 ^ 149 := by norm_num
        _ ≤ (n : ℝ) / 2 ^ 149 := by gcongr

/-- Squares of small numbers vanish. -/
lemma zero_lt_square_iff (x : ℝ) : (fin 0).lt (square (fin x)) = true ↔ 1 / 2 ^ 75 < |x| := by
  have hpow : (1 / 2 ^ 75 : ℝ) ^ 2 * 2 ^ 149 = 1 / 2 := by norm_num
  rw [square, ExtFloat.mul, zero_lt_round_iff (mul_self_nonneg x), ← hpow,
    mul_lt_mul_iff_left₀ (by positivity), ← sq, sq_lt_sq, abs_of_nonneg (by positivity)]

lemma isMagnitude_square (x : ℝ) : IsMagnitude (square (fin x)) :=
  isMagnitude_round (mul_self_nonneg x)

/-- The norm vanishes if no coordinate is larger than the root of half of the smallest number. -/
lemma zero_lt_norm_iff (x y z : ℝ) : (fin 0).lt (norm (fin x) (fin y) (fin z)) = true ↔
    1 / 2 ^ 75 < |x| ∨ 1 / 2 ^ 75 < |y| ∨ 1 / 2 ^ 75 < |z| := by
  have hx := isMagnitude_square x
  have hyz := isMagnitude_add (isMagnitude_square y) (isMagnitude_square z)
  rw [norm, zero_lt_sqrt_iff (isMagnitude_add hx hyz), zero_lt_add_iff hx hyz,
    zero_lt_add_iff (isMagnitude_square y) (isMagnitude_square z), zero_lt_square_iff,
    zero_lt_square_iff, zero_lt_square_iff]

end Real

end Binary32
