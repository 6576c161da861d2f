import HumanoidNavigation.Numeric.Binary64
import HumanoidNavigation.Numeric.CppFloat

/-!
# C++ arithmetic on doubles

The arithmetic of C++ code with rounding. The distance of two numbers, as the code computes it, is a
real number or the positive infinity; it is monotone.
-/

namespace Binary64

open ExtFloat

noncomputable instance : CppFloat Binary64 where
  div a b := round (a.val.div b.val)
  lit q := ofReal q
  lt a b := a.val.lt b.val
  abs a := round a.val.abs
  floor a := match a.val with
    | fin x => ⌊x⌋
    | _ => 0
  truncate a := match a.val with
    | fin x => ⌊x⌋.toNat
    | _ => 0

variable {a b q : Binary64} {x y z : ℝ}

lemma cpp_lt : CppFloat.lt a b = a.val.lt b.val := rfl

/-- On numbers the negation of the comparison is transitive. -/
lemma not_lt_trans (ha : a.IsFinite) (hb : b.IsFinite) (hq : q.IsFinite)
    (hab : CppFloat.lt b a = false) (hbq : CppFloat.lt q b = false) :
    CppFloat.lt q a = false := by
  obtain ⟨x, ha⟩ := ha
  obtain ⟨y, hb⟩ := hb
  obtain ⟨z, hq⟩ := hq
  rw [cpp_lt, hb, ha, fin_lt_fin, decide_eq_false_iff_not, not_lt] at hab
  rw [cpp_lt, hq, hb, fin_lt_fin, decide_eq_false_iff_not, not_lt] at hbq
  rw [cpp_lt, hq, ha, fin_lt_fin, decide_eq_false_iff_not, not_lt]
  exact hab.trans hbq

/-- The number, or the top for an infinity. -/
noncomputable def extent (a : Binary64) : WithTop ℝ :=
  match a.val with
  | fin x => x
  | _ => ⊤

lemma extent_fin (h : a.val = fin x) : a.extent = x := by simp only [extent, h]

lemma extent_posInf (h : a.val = posInf) : a.extent = ⊤ := by simp only [extent, h]

/-- A number or the positive infinity. -/
def Above (a : Binary64) : Prop := a.val = posInf ∨ a.IsFinite

lemma lt_iff_extent (ha : a.Above) (hb : b.Above) :
    CppFloat.lt a b = true ↔ a.extent < b.extent := by
  rw [cpp_lt]
  rcases ha with ha | ⟨x, ha⟩ <;> rcases hb with hb | ⟨y, hb⟩
  · simp [extent, ha, hb, ExtFloat.lt]
  · simp [extent, ha, hb, ExtFloat.lt]
  · simp [extent, ha, hb, ExtFloat.lt]
  · simp [extent, ha, hb]

lemma isFinite_iff_extent (ha : a.Above) : a.IsFinite ↔ a.extent < ⊤ := by
  rcases ha with ha | ⟨x, ha⟩
  · simp [IsFinite, extent, ha]
  · simp [IsFinite, extent, ha]

/-! ### Distances -/

/-- `std::abs(a - b)` -/
noncomputable def distance (a b : Binary64) : Binary64 := CppFloat.abs (a - b)

/-- Clearing the sign is exact. -/
lemma round_abs_ofReal (x : ℝ) : (round (ofReal x).val.abs).val =
    if |nearestDouble x| < overflow then fin |nearestDouble x| else posInf := by
  split_ifs with h
  · have hfin : (ofReal x).val = fin (nearestDouble x) := by rw [ofReal, dif_pos h]
    have hround : nearestDouble |nearestDouble x| = |nearestDouble x| := by
      rcases abs_choice (nearestDouble x) with habs | habs
      · rw [habs, nearestDouble_nearestDouble]
      · rw [habs, nearestDouble_neg, nearestDouble_nearestDouble]
    rw [hfin]
    exact ofReal_val hround (by rwa [abs_abs])
  · rw [ofReal, dif_neg h]
    split_ifs
    · rfl
    · rfl

lemma distance_val (ha : a.val = fin x) (hq : q.val = fin z) : (distance a q).val =
    if |nearestDouble (x - z)| < overflow then fin |nearestDouble (x - z)| else posInf := by
  have hsub : a - q = round (a.val - q.val) := rfl
  rw [← round_abs_ofReal, distance, hsub, ha, hq, fin_sub_fin]
  rfl

lemma distance_above (ha : a.IsFinite) (hq : q.IsFinite) : (distance a q).Above := by
  obtain ⟨x, ha⟩ := ha
  obtain ⟨z, hq⟩ := hq
  rw [Above, IsFinite, distance_val ha hq]
  split_ifs with h
  · exact Or.inr ⟨_, rfl⟩
  · exact Or.inl rfl

/-- The distance to an infinity is infinite. -/
lemma distance_of_isInf (ha : a.IsFinite) (hq : q.IsInf) : (distance a q).val = posInf := by
  obtain ⟨x, ha⟩ := ha
  have hsub : a - q = round (a.val + -q.val) := rfl
  rw [distance, hsub, ha]
  rcases hq with hq | hq
  · rw [hq]
    rfl
  · rw [hq]
    rfl

/-- Of two numbers before a third the earlier one is not nearer. -/
lemma distance_anti (ha : a.IsFinite) (hb : b.IsFinite) (hq : q.IsFinite)
    (hab : CppFloat.lt b a = false) (hbq : CppFloat.lt b q = true) :
    (distance b q).extent ≤ (distance a q).extent := by
  obtain ⟨x, ha⟩ := ha
  obtain ⟨y, hb⟩ := hb
  obtain ⟨z, hq⟩ := hq
  rw [cpp_lt, hb, ha, fin_lt_fin, decide_eq_false_iff_not, not_lt] at hab
  rw [cpp_lt, hb, hq, fin_lt_fin, decide_eq_true_eq] at hbq
  have hdiff : nearestDouble (x - z) ≤ nearestDouble (y - z) :=
    nearestDouble_mono (sub_le_sub_right hab z)
  have hneg : nearestDouble (y - z) ≤ 0 := by
    rw [← nearestDouble_zero]
    exact nearestDouble_mono (sub_nonpos.mpr hbq.le)
  have habs : |nearestDouble (y - z)| ≤ |nearestDouble (x - z)| := by
    rw [abs_of_nonpos hneg, abs_of_nonpos (hdiff.trans hneg)]
    exact neg_le_neg hdiff
  rw [extent, extent, distance_val hb hq, distance_val ha hq]
  split_ifs with h₁ h₂ h₂
  · exact WithTop.coe_le_coe.mpr habs
  · exact le_top
  · exact absurd (habs.trans_lt h₂) h₁
  · exact le_rfl

/-! ### Integers -/

variable {m n : ℤ}

lemma nearestDouble_intCast (hn : |n| < 2 ^ 53) : nearestDouble (n : ℝ) = n :=
  nearestDouble_of_mantissa hn (by norm_num : (-1074 : ℤ) ≤ 0) (by simp)

lemma abs_intCast_lt_overflow (hn : |n| < 2 ^ 53) : |(n : ℝ)| < overflow := by
  have hcast : |(n : ℝ)| < 2 ^ 53 := by exact_mod_cast hn
  refine hcast.trans ?_
  rw [overflow, ← zpow_natCast]
  exact zpow_lt_zpow_right₀ one_lt_two (by norm_num)

lemma ofReal_intCast_val (hn : |n| < 2 ^ 53) : (ofReal n).val = fin (n : ℝ) :=
  ofReal_val (nearestDouble_intCast hn) (abs_intCast_lt_overflow hn)

lemma distance_intCast (hm : |m| < 2 ^ 53) (hn : |n| < 2 ^ 53) (hmn : |m - n| < 2 ^ 53) :
    (distance (ofReal m) (ofReal n)).extent = ((|m - n| : ℤ) : ℝ) := by
  refine extent_fin ?_
  rw [distance_val (ofReal_intCast_val hm) (ofReal_intCast_val hn), ← Int.cast_sub,
    nearestDouble_intCast hmn, if_pos (abs_intCast_lt_overflow hmn), Int.cast_abs]

end Binary64
