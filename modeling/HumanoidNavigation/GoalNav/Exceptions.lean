import HumanoidNavigation.GoalNav.System
import HumanoidNavigation.Numeric.Binary64

/-!
# Goal messages that end the node

In double precision `_on_goal` raises an exception in two places: when the rotation that
`_rot_to_quat` converts has an infinite trace, and when the cell that is logged has no finite
coordinates. The other roots and divisions never fail, whatever the numbers of the message are,
because every branch of `_rot_to_quat` bounds its radicand away from zero, rounding included
(`notBelow_radicand`).
-/

namespace GoalNav

open PyFloat Binary64 ExtFloat Except

/-! ### Doubles that bound -/

lemma nearestDouble_quarter : nearestDouble (1 / 4 : ℝ) = 1 / 4 :=
  nearestDouble_of_mantissa (k := 1) (e := -2) (by norm_num) (by norm_num) (by norm_num)

lemma nearestDouble_half : nearestDouble (1 / 2 : ℝ) = 1 / 2 :=
  nearestDouble_of_mantissa (k := 1) (e := -1) (by norm_num) (by norm_num) (by norm_num)

lemma nearestDouble_three_quarters : nearestDouble (3 / 4 : ℝ) = 3 / 4 :=
  nearestDouble_of_mantissa (k := 3) (e := -2) (by norm_num) (by norm_num) (by norm_num)

lemma nearestDouble_one : nearestDouble (1 : ℝ) = 1 :=
  nearestDouble_of_mantissa (k := 1) (e := 0) (by norm_num) (by norm_num) (by norm_num)

lemma nearestDouble_sixteenth : nearestDouble (1 / 16 : ℝ) = 1 / 16 :=
  nearestDouble_of_mantissa (k := 1) (e := -4) (by norm_num) (by norm_num) (by norm_num)

section

variable [Libm]

/-! ### The radicands of `_rot_to_quat` -/

section Radicand

variable {a b c : Binary64} {d : Fin 3 → Binary64} {i j k : Fin 3} {x p r v : ℝ}

/-- The radicand of a small pivot. -/
lemma atLeast_radicand_of_le (ha : a.val = fin x) (hx : x ≤ 1 / 4) (hb : AtMost x b)
    (hc : AtMost x c) : AtLeast (1 / 4) (lit 1 + a - b - c) := by
  have hone : AtLeast 1 (lit 1 : Binary64) := atLeast_of_fin lit_one_val
  have ha' : AtLeast x a := atLeast_of_fin ha
  rcases lt_or_ge 0 x with hpos | hneg
  · have hsum : AtLeast 1 (lit 1 + a) :=
      hone.add ha' nearestDouble_one (neg_overflow_lt zero_le_one) (by linarith)
    have hdiff : AtLeast (3 / 4) (lit 1 + a - b) :=
      hsum.sub hb nearestDouble_three_quarters (neg_overflow_lt (by norm_num)) (by linarith)
    exact hdiff.sub hc nearestDouble_quarter (neg_overflow_lt (by norm_num)) (by linarith)
  rcases lt_or_ge x (-1 / 2) with hlow | hhigh
  · have hsum : AtLeast x (lit 1 + a) :=
      hone.add ha' (a.rounded x ha) (abs_lt.mp (a.range x ha)).1 (by linarith)
    have hdiff : AtLeast 0 (lit 1 + a - b) :=
      hsum.sub hb nearestDouble_zero (neg_overflow_lt le_rfl) (by linarith)
    exact hdiff.sub hc nearestDouble_quarter (neg_overflow_lt (by norm_num)) (by linarith)
  · have hsum : AtLeast (1 / 2) (lit 1 + a) :=
      hone.add ha' nearestDouble_half (neg_overflow_lt (by norm_num)) (by linarith)
    have hdiff : AtLeast (1 / 2) (lit 1 + a - b) :=
      hsum.sub hb nearestDouble_half (neg_overflow_lt (by norm_num)) (by linarith)
    exact hdiff.sub hc nearestDouble_quarter (neg_overflow_lt (by norm_num)) (by linarith)

/-- The radicand of a large pivot, when a second positive entry makes the third one at most the
negated pivot. -/
lemma atLeast_radicand_of_lt (ha : a.val = fin x) (hx : 1 / 4 < x) (hb : AtMost x b)
    (hc : AtMost x c) (hbc : AtMost 0 b ∨ AtMost (-x) c) (hcb : AtMost 0 c ∨ AtMost (-x) b) :
    AtLeast (1 / 4) (lit 1 + a - b - c) := by
  have hdouble := a.rounded x ha
  have hxlo : -overflow < x := neg_overflow_lt (by linarith)
  have hone : AtLeast 1 (lit 1 : Binary64) := atLeast_of_fin lit_one_val
  have ha' : AtLeast x a := atLeast_of_fin ha
  have hsum : AtLeast x (lit 1 + a) := hone.add ha' hdouble hxlo (by linarith)
  rcases hbc with hb₀ | hc₀
  · rcases hcb with hc₀ | hb₁
    · have hdiff : AtLeast x (lit 1 + a - b) := hsum.sub hb₀ hdouble hxlo (by linarith)
      exact (hdiff.sub hc₀ hdouble hxlo (by linarith)).mono hx.le
    · have hdiff : AtLeast (2 * x) (lit 1 + a - b) :=
        hsum.sub hb₁ (nearestDouble_two_mul hdouble) (neg_overflow_lt (by linarith)) (by linarith)
      exact (hdiff.sub hc hdouble hxlo (by linarith)).mono hx.le
  · have hdiff : AtLeast 0 (lit 1 + a - b) :=
      hsum.sub hb nearestDouble_zero (neg_overflow_lt le_rfl) (by linarith)
    exact (hdiff.sub hc₀ hdouble hxlo (by linarith)).mono hx.le

lemma lt_of_atLeast (h : AtLeast v a) (hv : 0 < v) : lt (lit 0) a = true := by
  show (lit 0 : Binary64).val.lt a.val = true
  rcases h with h | ⟨x, h, hx⟩ <;> rw [lit_zero_val, h]
  · rfl
  · simpa using hv.trans_le hx

/-- A sum of three is positive when the first two make up for the third. -/
lemma sum_pos_of_last (h : AtLeast x (a + b)) (hc : c.val = fin r) (hr : -x < r) :
    lt (lit 0) (a + b + c) = true :=
  lt_of_atLeast (h.add_pos hc (by linarith)) (zpow_pos two_pos _)

/-- A sum of three is positive when the third is and the first two are not negative. -/
lemma sum_pos_of_first (ha : AtLeast x a) (hb : AtLeast r b) (hr : 0 ≤ x + r) (hc : c.val = fin p)
    (hp : 0 < p) : lt (lit 0) (a + b + c) = true := by
  have hsum : AtLeast 0 (a + b) := ha.add hb nearestDouble_zero (neg_overflow_lt le_rfl) hr
  refine lt_of_atLeast (hsum.add (atLeast_of_fin hc) (c.rounded p hc) ?_ ?_) hp
  · exact neg_overflow_lt hp.le
  · rw [zero_add]

/-- The trace is positive when two of the diagonal entries are and the third is above the negated
first, in whatever order they are added. -/
lemma trace_pos (hij : i ≠ j) (hjk : j ≠ k) (hik : i ≠ k) (hi : (d i).val = fin x)
    (hj : (d j).val = fin p) (hk : (d k).val = fin r) (hp : 0 < p) (hpx : p ≤ x) (h : -x < r) :
    lt (lit 0) (d 0 + d 1 + d 2) = true := by
  have hperm : i = 0 ∧ j = 1 ∧ k = 2 ∨ i = 1 ∧ j = 0 ∧ k = 2 ∨ i = 0 ∧ j = 2 ∧ k = 1 ∨
      i = 1 ∧ j = 2 ∧ k = 0 ∨ i = 2 ∧ j = 0 ∧ k = 1 ∨ i = 2 ∧ j = 1 ∧ k = 0 := by
    clear hi hj hk
    revert i j k
    decide
  have hx := (d i).rounded x hi
  have hr := (d k).rounded r hk
  have hxlo : -overflow < x := neg_overflow_lt (hp.le.trans hpx)
  have hrlo : -overflow < r := (abs_lt.mp ((d k).range r hk)).1
  have hi' := atLeast_of_fin hi
  have hj' := atLeast_of_fin hj
  have hk' := atLeast_of_fin hk
  rcases hperm with ⟨rfl, rfl, rfl⟩ | ⟨rfl, rfl, rfl⟩ | ⟨rfl, rfl, rfl⟩ | ⟨rfl, rfl, rfl⟩ |
    ⟨rfl, rfl, rfl⟩ | ⟨rfl, rfl, rfl⟩
  · exact sum_pos_of_last (hi'.add hj' hx hxlo (by linarith)) hk h
  · exact sum_pos_of_last (hj'.add hi' hx hxlo (by linarith)) hk h
  · exact sum_pos_of_first hi' hk' (by linarith) hj hp
  · exact sum_pos_of_first hk' hi' (by linarith) hj hp
  · exact sum_pos_of_last (hj'.add hk' hr hrlo (by linarith)) hi (by linarith)
  · exact sum_pos_of_last (hk'.add hj' hr hrlo (by linarith)) hi (by linarith)

/-- An entry that is not above the pivot is at most the pivot. -/
lemma atMost_of_not_lt (ha : a.val = fin x) (hb : b.val ≠ nan) (h : lt a b = false) :
    AtMost x b := by
  replace h : a.val.lt b.val = false := h
  rw [ha] at h
  cases hbv : b.val with
  | fin y =>
    rw [hbv] at h
    exact Or.inr ⟨y, hbv, by simpa using h⟩
  | posInf =>
    rw [hbv] at h
    cases h
  | negInf => exact Or.inl hbv
  | nan => exact absurd hbv hb

/-- With the trace not positive, a positive entry forces the third one below the negated pivot. -/
lemma atMost_third (hij : i ≠ j) (hjk : j ≠ k) (hik : i ≠ k) (hi : (d i).val = fin x)
    (hj : AtMost x (d j)) (hk : AtMost x (d k))
    (htrace : lt (lit 0) (d 0 + d 1 + d 2) = false) :
    AtMost 0 (d j) ∨ AtMost (-x) (d k) := by
  rcases hj with hj | ⟨p, hj, hpx⟩
  · exact Or.inl (Or.inl hj)
  rcases lt_or_ge 0 p with hp | hp
  · right
    rcases hk with hk | ⟨r, hk, -⟩
    · exact Or.inl hk
    · refine Or.inr ⟨r, hk, le_of_not_gt fun h => ?_⟩
      rw [trace_pos hij hjk hik hi hj hk hp hpx h] at htrace
      cases htrace
  · exact Or.inl (Or.inr ⟨p, hj, hp⟩)

lemma notBelow_radicand_of_posInf (hi : (d i).val = posInf) :
    NotBelow v (lit 1 + d i - d j - d k) := by
  have hsum : (lit 1 + d i).val = posInf := by
    show (round ((lit 1 : Binary64).val + (d i).val)).val = posInf
    rw [lit_one_val, hi]
    rfl
  rcases sub_of_posInf (sub_of_posInf (Or.inl hsum)) with h | h
  · exact Or.inr (Or.inl h)
  · exact Or.inl h

/-- Below minus infinity there is nothing but minus infinity, and the difference is NaN. -/
lemma radicand_of_negInf (hi : (d i).val = negInf) (hnan : (d j).val ≠ nan)
    (hj : lt (d i) (d j) = false) : (lit 1 + d i - d j - d k).val = nan := by
  have hsum : (lit 1 + d i).val = negInf := by
    show (round ((lit 1 : Binary64).val + (d i).val)).val = negInf
    rw [lit_one_val, hi]
    rfl
  have hj' : (d j).val = negInf := by
    replace hj : (d i).val.lt (d j).val = false := hj
    rw [hi] at hj
    cases hjv : (d j).val with
    | negInf => rfl
    | nan => exact absurd hjv hnan
    | fin y | posInf =>
      rw [hjv] at hj
      cases hj
  exact sub_of_nan (Or.inl (sub_of_negInf hsum hj'))

lemma radicand_of_nan {l : Fin 3} (hij : i ≠ j) (hjk : j ≠ k) (hik : i ≠ k)
    (hl : (d l).val = nan) : (lit 1 + d i - d j - d k).val = nan := by
  have hcover : l = i ∨ l = j ∨ l = k := by
    clear hl
    revert i j k l
    decide
  rcases hcover with rfl | rfl | rfl
  · exact sub_of_nan (Or.inl (sub_of_nan (Or.inl (add_of_nan (Or.inr hl)))))
  · exact sub_of_nan (Or.inl (sub_of_nan (Or.inr hl)))
  · exact sub_of_nan (Or.inr hl)

/-- The radicand of a branch whose pivot is the largest entry is `1 / 4` at least, or NaN. -/
lemma notBelow_radicand (hij : i ≠ j) (hjk : j ≠ k) (hik : i ≠ k)
    (htrace : lt (lit 0) (d 0 + d 1 + d 2) = false)
    (hmax : (∀ l, (d l).val ≠ nan) → lt (d i) (d j) = false ∧ lt (d i) (d k) = false) :
    NotBelow (1 / 4) (lit 1 + d i - d j - d k) := by
  by_cases hnan : ∀ l, (d l).val ≠ nan
  · obtain ⟨hj, hk⟩ := hmax hnan
    cases hi : (d i).val with
    | fin x =>
      have hj' := atMost_of_not_lt hi (hnan j) hj
      have hk' := atMost_of_not_lt hi (hnan k) hk
      right
      rcases le_or_gt x (1 / 4) with hx | hx
      · exact atLeast_radicand_of_le hi hx hj' hk'
      · exact atLeast_radicand_of_lt hi hx hj' hk' (atMost_third hij hjk hik hi hj' hk' htrace)
          (atMost_third hik hjk.symm hij hi hk' hj' htrace)
    | posInf => exact notBelow_radicand_of_posInf hi
    | negInf => exact Or.inl (radicand_of_negInf hi (hnan j) hj)
    | nan => exact absurd hi (hnan i)
  · obtain ⟨l, hl⟩ := not_forall_not.mp hnan
    exact Or.inl (radicand_of_nan hij hjk hik hl)

/-- The pivot of the second branch. -/
lemma notBelow_radicand_first (htrace : lt (lit 0) (d 0 + d 1 + d 2) = false)
    (hy : lt (d 1) (d 0) = true) (hz : lt (d 2) (d 0) = true) :
    NotBelow (1 / 4) (lit 1 + d 0 - d 1 - d 2) :=
  notBelow_radicand (by decide) (by decide) (by decide) htrace
    fun _ => ⟨ExtFloat.lt_asymm hy, ExtFloat.lt_asymm hz⟩

/-- That of the third branch, which compares two entries only. -/
lemma notBelow_radicand_second (htrace : lt (lit 0) (d 0 + d 1 + d 2) = false)
    (hx : lt (d 1) (d 0) = true → lt (d 2) (d 0) = false) (hy : lt (d 2) (d 1) = true) :
    NotBelow (1 / 4) (lit 1 + d 1 - d 0 - d 2) := by
  refine notBelow_radicand (by decide) (by decide) (by decide) htrace fun hnan => ?_
  refine ⟨?_, ExtFloat.lt_asymm hy⟩
  by_contra hlt
  replace hlt : lt (d 1) (d 0) = true := Bool.eq_true_of_not_eq_false hlt
  have hz : lt (d 2) (d 0) = true := ExtFloat.lt_trans hy hlt
  cases hz.symm.trans (hx hlt)

/-- That of the last branch. -/
lemma notBelow_radicand_third (htrace : lt (lit 0) (d 0 + d 1 + d 2) = false)
    (hx : lt (d 1) (d 0) = true → lt (d 2) (d 0) = false) (hy : lt (d 2) (d 1) = false) :
    NotBelow (1 / 4) (lit 1 + d 2 - d 0 - d 1) := by
  refine notBelow_radicand (by decide) (by decide) (by decide) htrace fun hnan => ?_
  refine ⟨?_, hy⟩
  by_contra hlt
  replace hlt : lt (d 2) (d 0) = true := Bool.eq_true_of_not_eq_false hlt
  have hone : lt (d 1) (d 0) = false := by
    by_contra hone
    cases hlt.symm.trans (hx (Bool.eq_true_of_not_eq_false hone))
  cases hy.symm.trans (ExtFloat.lt_of_lt_of_not_lt hlt (hnan 1) hone)

end Radicand

/-! ### `_rot_to_quat` -/

section RotToQuat

variable {a x y z w : Binary64} {m : Ros.Mat3 Binary64}

omit [Libm] in
lemma notBelow_sq_of_quarter (h : NotBelow (1 / 4) a) : NotBelow (1 / 16) (a * a) :=
  h.sq (by norm_num) nearestDouble_sixteenth (neg_overflow_lt (by norm_num)) (by norm_num)

lemma div_ok {v : ℝ} (ha : NotBelow v a) (hv : 0 < v) (x : Binary64) : ∃ r, div x a = .ok r :=
  ⟨_, if_neg (ha.ne_zero hv)⟩

/-- The norm is not zero when one of the squares is not. -/
lemma normalizeQuat_ok (h : NotBelow (1 / 16) (x * x) ∨ NotBelow (1 / 16) (y * y) ∨
    NotBelow (1 / 16) (z * z) ∨ NotBelow (1 / 16) (w * w)) :
    ∃ q, normalizeQuat x y z w = .ok q := by
  have hlo₀ : -overflow < (0 : ℝ) := neg_overflow_lt le_rfl
  have hlo : -overflow < (1 / 16 : ℝ) := neg_overflow_lt (by norm_num)
  have hzero := nearestDouble_zero (K := ℝ)
  have hsmall := nearestDouble_sixteenth
  have hnorm : NotBelow (1 / 16) (x * x + y * y + z * z + w * w) := by
    rcases h with h | h | h | h
    · have hxy := h.add (notBelow_sq y) hsmall hlo (by norm_num)
      have hxyz := hxy.add (notBelow_sq z) hsmall hlo (by norm_num)
      exact hxyz.add (notBelow_sq w) hsmall hlo (by norm_num)
    · have hxy := (notBelow_sq x).add h hsmall hlo (by norm_num)
      have hxyz := hxy.add (notBelow_sq z) hsmall hlo (by norm_num)
      exact hxyz.add (notBelow_sq w) hsmall hlo (by norm_num)
    · have hxy := (notBelow_sq x).add (notBelow_sq y) hzero hlo₀ (by norm_num)
      have hxyz := hxy.add h hsmall hlo (by norm_num)
      exact hxyz.add (notBelow_sq w) hsmall hlo (by norm_num)
    · have hxy := (notBelow_sq x).add (notBelow_sq y) hzero hlo₀ (by norm_num)
      have hxyz := hxy.add (notBelow_sq z) hzero hlo₀ (by norm_num)
      exact hxyz.add h hsmall hlo (by norm_num)
  obtain ⟨norm, hsqrt, hpos⟩ := hnorm.sqrt (w := 1 / 16) (by norm_num) hsmall hlo
    (Real.le_sqrt_of_sq_le (by norm_num))
  obtain ⟨x', hx⟩ := div_ok hpos (by norm_num) x
  obtain ⟨y', hy⟩ := div_ok hpos (by norm_num) y
  obtain ⟨z', hz⟩ := div_ok hpos (by norm_num) z
  obtain ⟨w', hw⟩ := div_ok hpos (by norm_num) w
  exact ⟨⟨x', y', z', w'⟩, bind_eq_ok.mpr ⟨norm, hsqrt, bind_eq_ok.mpr ⟨x', hx, bind_eq_ok.mpr
    ⟨y', hy, bind_eq_ok.mpr ⟨z', hz, bind_eq_ok.mpr ⟨w', hw, rfl⟩⟩⟩⟩⟩⟩

lemma lit_two_val : (lit 2 : Binary64).val = fin 2 := by
  simpa using lit_val (q := 2) (k := 1) (e := 1) (by norm_num) (by norm_num) (by norm_num)
    (by norm_num)

lemma lit_half_val : (lit 0.5 : Binary64).val = fin (1 / 2) := by
  rw [lit_val (k := 1) (e := -1) (by norm_num) (by norm_num) (by norm_num) (by norm_num)]
  norm_num

lemma lit_quarter_val : (lit 0.25 : Binary64).val = fin (1 / 4) := by
  rw [lit_val (k := 1) (e := -2) (by norm_num) (by norm_num) (by norm_num) (by norm_num)]
  norm_num

/-- In a branch with its pivot the largest entry, the root exists and the coordinate that is
computed from it is not small. -/
lemma sqrt_radicand (ha : NotBelow (1 / 4) a) :
    ∃ s, PyFloat.sqrt a = .ok s ∧
      NotBelow (1 / 16) (lit 0.25 * (lit 2 * s) * (lit 0.25 * (lit 2 * s))) := by
  obtain ⟨s, hs, hpos⟩ := ha.sqrt (w := 1 / 2) (by norm_num) nearestDouble_half
    (neg_overflow_lt (by norm_num)) (Real.le_sqrt_of_sq_le (by norm_num))
  have htwo : NotBelow 1 (lit 2 * s) := hpos.const_mul lit_two_val (by norm_num)
    nearestDouble_one (neg_overflow_lt (by norm_num)) (by norm_num)
  have hquarter : NotBelow (1 / 4) (lit 0.25 * (lit 2 * s)) :=
    htwo.const_mul lit_quarter_val (by norm_num) nearestDouble_quarter
      (neg_overflow_lt (by norm_num)) (by norm_num)
  exact ⟨s, hs, notBelow_sq_of_quarter hquarter⟩

omit [Libm] in
/-- The root of a finite number that is not below one. -/
lemma sqrt_between {r : ℝ} (ha : a.val = fin r) (hr : 1 ≤ r) :
    ∃ root y, a.sqrt = .ok root ∧ root.val = fin y ∧ 1 ≤ y ∧ y ≤ 2 ^ (512 : ℤ) := by
  have htop : r ≤ (2 ^ (512 : ℤ)) ^ 2 := by
    have hlt := (abs_lt.mp (a.range r ha)).2
    rw [← zpow_natCast, ← zpow_mul]
    exact hlt.le
  obtain ⟨y, hy, hlo, hhi⟩ := ofReal_between nearestDouble_one
    (nearestDouble_two_zpow (e := 512) (by norm_num)) (neg_overflow_lt zero_le_one)
    (zpow_lt_zpow_right₀ one_lt_two (by norm_num)) (Real.le_sqrt_of_sq_le (by linarith))
    (Real.sqrt_le_iff.mpr ⟨(zpow_pos two_pos _).le, htop⟩)
  refine ⟨ofReal √r, y, ?_, hy, hlo, hhi⟩
  rw [Binary64.sqrt, ha]
  exact if_neg (by linarith)

/-- A quotient of finite numbers. -/
lemma div_of_fin {b : Binary64} {u v : ℝ} (ha : a.val = fin u) (hb : b.val = fin v) (hv : v ≠ 0) :
    div a b = .ok (ofReal (u / v)) := by
  have hne : b.val ≠ fin 0 := by
    rw [hb]
    rintro ⟨⟩
    exact hv rfl
  refine (if_neg hne).trans ?_
  rw [ha, hb, ExtFloat.div, if_neg hv]
  rfl

/-- The first branch, on a finite trace. -/
lemma first_branch_ok (hpos : lt (lit 0) a = true) (hfin : a.val ≠ posInf) :
    ∃ root s w, PyFloat.sqrt (a + lit 1) = .ok root ∧ div (lit 0.5) root = .ok s ∧
      div (lit 0.25) s = .ok w ∧ NotBelow (1 / 16) (w * w) := by
  obtain ⟨t, ht, htpos⟩ : ∃ t, a.val = fin t ∧ 0 < t := by
    replace hpos : (lit 0 : Binary64).val.lt a.val = true := hpos
    rw [lit_zero_val] at hpos
    cases ha : a.val with
    | fin t =>
      rw [ha] at hpos
      exact ⟨t, rfl, by simpa using hpos⟩
    | posInf => exact absurd ha hfin
    | negInf | nan =>
      rw [ha] at hpos
      cases hpos
  obtain ⟨r, hr, hone⟩ := (atLeast_of_fin ht).add_one htpos hfin lit_one_val
  obtain ⟨root, y, hroot, hy, hlo, hhi⟩ := sqrt_between hr hone
  have hypos : 0 < y := one_pos.trans_le hlo
  have htiny : (0 : ℝ) < 2 ^ (-513 : ℤ) := zpow_pos two_pos _
  have hquot : 2 ^ (-513 : ℤ) ≤ 1 / 2 / y := by
    have hsplit : (2 : ℝ) ^ (-513 : ℤ) * 2 ^ (512 : ℤ) = 1 / 2 := by
      rw [← zpow_add₀ two_ne_zero]
      norm_num
    rw [le_div_iff₀ hypos, ← hsplit]
    exact mul_le_mul_of_nonneg_left hhi htiny.le
  obtain ⟨u, hu, hulo, huhi⟩ := ofReal_between (nearestDouble_two_zpow (by norm_num))
    nearestDouble_half (neg_overflow_lt htiny.le) (by
      exact lt_of_lt_of_le (by norm_num) (one_le_zpow₀ one_le_two (by norm_num) : 1 ≤ overflow))
    hquot (div_le_self (by norm_num) hlo)
  have hupos : 0 < u := htiny.trans_le hulo
  refine ⟨root, _, _, hroot, div_of_fin lit_half_val hy hypos.ne',
    div_of_fin lit_quarter_val hu hupos.ne', notBelow_sq_of_quarter (Or.inr ?_)⟩
  refine atLeast_ofReal nearestDouble_quarter (neg_overflow_lt (by norm_num)) ?_
  rw [le_div_iff₀ hupos]
  linarith

/-- On an infinite trace the first branch divides by zero. -/
lemma rotToQuat_of_posInf (h : (m 0 0 + m 1 1 + m 2 2).val = posInf) :
    rotToQuat m = .error .zeroDivisionError := by
  have hlt : lt (lit 0) (m 0 0 + m 1 1 + m 2 2) = true := by
    show (lit 0 : Binary64).val.lt _ = true
    rw [lit_zero_val, h]
    rfl
  have hsum : (m 0 0 + m 1 1 + m 2 2 + lit 1).val = posInf := by
    show (round ((m 0 0 + m 1 1 + m 2 2).val + (lit 1 : Binary64).val)).val = posInf
    rw [h, lit_one_val]
    rfl
  have hroot : PyFloat.sqrt (m 0 0 + m 1 1 + m 2 2 + lit 1) =
      .ok (m 0 0 + m 1 1 + m 2 2 + lit 1) := by
    show Binary64.sqrt _ = _
    rw [Binary64.sqrt, hsum]
  have hs : div (lit 0.5) (m 0 0 + m 1 1 + m 2 2 + lit 1) = .ok (ofReal 0) := by
    refine (if_neg (by simp [hsum])).trans ?_
    rw [lit_half_val, hsum]
    rfl
  have hw : div (lit 0.25) (ofReal 0) = .error .zeroDivisionError := if_pos ofReal_zero_val
  simp only [rotToQuat, if_pos hlt, hroot, hs, hw, bind, Except.bind]

lemma rotToQuat_ok (h : (m 0 0 + m 1 1 + m 2 2).val ≠ posInf) : ∃ q, rotToQuat m = .ok q := by
  let d : Fin 3 → Binary64 := fun i => m i i
  simp only [rotToQuat]
  by_cases htrace : lt (lit 0) (m 0 0 + m 1 1 + m 2 2) = true
  · obtain ⟨root, s, w, hroot, hs, hw, hpos⟩ := first_branch_ok htrace h
    rw [if_pos htrace]
    obtain ⟨q, hq⟩ := normalizeQuat_ok (x := (m 2 1 - m 1 2) * s) (y := (m 0 2 - m 2 0) * s)
      (z := (m 1 0 - m 0 1) * s) (Or.inr (Or.inr (Or.inr hpos)))
    exact ⟨q, bind_eq_ok.mpr ⟨root, hroot, bind_eq_ok.mpr ⟨s, hs, bind_eq_ok.mpr ⟨w, hw, hq⟩⟩⟩⟩
  rw [if_neg htrace]
  replace htrace : lt (lit 0) (d 0 + d 1 + d 2) = false := Bool.eq_false_iff.mpr htrace
  by_cases hx : (lt (m 1 1) (m 0 0) && lt (m 2 2) (m 0 0)) = true
  · obtain ⟨hy, hz⟩ := Bool.and_eq_true_iff.mp hx
    obtain ⟨s, hs, hpos⟩ := sqrt_radicand (notBelow_radicand_first (d := d) htrace hy hz)
    rw [if_pos hx]
    obtain ⟨q, hq⟩ := normalizeQuat_ok (Or.inl hpos)
    exact ⟨q, bind_eq_ok.mpr ⟨s, hs, hq⟩⟩
  rw [if_neg hx]
  replace hx : lt (d 1) (d 0) = true → lt (d 2) (d 0) = false := by
    intro hy
    by_contra hz
    exact hx (Bool.and_eq_true_iff.mpr ⟨hy, Bool.eq_true_of_not_eq_false hz⟩)
  by_cases hy : lt (m 2 2) (m 1 1) = true
  · obtain ⟨s, hs, hpos⟩ := sqrt_radicand (notBelow_radicand_second (d := d) htrace hx hy)
    rw [if_pos hy]
    obtain ⟨q, hq⟩ := normalizeQuat_ok (Or.inr (Or.inl hpos))
    exact ⟨q, bind_eq_ok.mpr ⟨s, hs, hq⟩⟩
  · obtain ⟨s, hs, hpos⟩ := sqrt_radicand
      (notBelow_radicand_third (d := d) htrace hx (Bool.eq_false_iff.mpr hy))
    rw [if_neg hy]
    obtain ⟨q, hq⟩ := normalizeQuat_ok (Or.inr (Or.inr (Or.inl hpos)))
    exact ⟨q, bind_eq_ok.mpr ⟨s, hs, hq⟩⟩

end RotToQuat

/-! ### Map cells -/

section Cells

variable {map : OccupancyGrid Binary64} {x y : Binary64}

/-- The grid has a positive resolution and a value for every cell. -/
structure OccupancyGrid.WellFormed (map : OccupancyGrid Binary64) : Prop where
  resolution : lt (lit 0) map.resolution = true
  data : map.data.length = map.width * map.height

/-- The column of a position, as a number that is not rounded down yet. -/
noncomputable def OccupancyGrid.column (map : OccupancyGrid Binary64) (x y : Binary64) : Binary64 :=
  let yaw := yawFromQuaternion map.originOrientation
  npDiv (Libm.cos (-yaw) * (x - map.originPosition.x) -
    Libm.sin (-yaw) * (y - map.originPosition.y)) map.resolution

noncomputable def OccupancyGrid.row (map : OccupancyGrid Binary64) (x y : Binary64) : Binary64 :=
  let yaw := yawFromQuaternion map.originOrientation
  npDiv (Libm.sin (-yaw) * (x - map.originPosition.x) +
    Libm.cos (-yaw) * (y - map.originPosition.y)) map.resolution

/-- The position has finite coordinates on the grid: no number it is computed from is NaN or
infinite, and nothing overflows. -/
def OccupancyGrid.Locates (map : OccupancyGrid Binary64) (p : Ros.Vector3 Binary64) : Prop :=
  (map.column p.x p.y).IsFinite ∧ (map.row p.x p.y).IsFinite

lemma periodic_neg_atan2 (f : Binary64 → Binary64) (u v : Binary64) :
    periodic f (-Libm.atan2 u v) = .ok (f (-Libm.atan2 u v)) :=
  if_neg fun h => Libm.not_isInf_atan2 u v (neg_isInf h)

lemma div_resolution (hres : lt (lit 0) map.resolution = true) (x : Binary64) :
    div x map.resolution = .ok (npDiv x map.resolution) := by
  refine if_neg fun h => ?_
  replace hres : (lit 0 : Binary64).val.lt map.resolution.val = true := hres
  rw [lit_zero_val, h] at hres
  simp at hres

lemma floor_ok_iff {a : Binary64} : (∃ n, PyFloat.floor a = .ok n) ↔ a.IsFinite := by
  have hfloor : PyFloat.floor a = Binary64.floor a := rfl
  rw [hfloor, Binary64.floor, IsFinite]
  cases a.val with
  | fin x => exact iff_of_true ⟨_, rfl⟩ ⟨x, rfl⟩
  | posInf | negInf | nan =>
    refine iff_of_false ?_ ?_
    · rintro ⟨n, hn⟩
      cases hn
    · rintro ⟨x, hx⟩
      cases hx

lemma worldToMapCell_eq (hres : lt (lit 0) map.resolution = true) :
    worldToMapCell map x y = (do
      let col ← PyFloat.floor (map.column x y)
      let row ← PyFloat.floor (map.row x y)
      if col < 0 ∨ row < 0 ∨ col ≥ map.width ∨ row ≥ map.height then
        return none
      else
        return some (col, row, row * map.width + col)) := by
  have hcos : PyFloat.cos (-yawFromQuaternion map.originOrientation) =
      .ok (Libm.cos (-yawFromQuaternion map.originOrientation)) := periodic_neg_atan2 _ _ _
  have hsin : PyFloat.sin (-yawFromQuaternion map.originOrientation) =
      .ok (Libm.sin (-yawFromQuaternion map.originOrientation)) := periodic_neg_atan2 _ _ _
  simp only [worldToMapCell, hcos, hsin, div_resolution hres]
  rfl

/-- The cell of a located position is outside the map or has a value. -/
lemma worldToMapCell_of_locates (hmap : map.WellFormed) {p : Ros.Vector3 Binary64}
    (h : map.Locates p) : ∃ c, worldToMapCell map p.x p.y = .ok c ∧
      ∀ cell ∈ c, cell.2.2.toNat < map.data.length := by
  obtain ⟨⟨u, hu⟩, v, hv⟩ := h
  have hcol : PyFloat.floor (map.column p.x p.y) = .ok ⌊u⌋ := by
    show Binary64.floor _ = _
    rw [Binary64.floor, hu]
  have hrow : PyFloat.floor (map.row p.x p.y) = .ok ⌊v⌋ := by
    show Binary64.floor _ = _
    rw [Binary64.floor, hv]
  rw [worldToMapCell_eq hmap.resolution, hcol, hrow]
  by_cases hout : ⌊u⌋ < 0 ∨ ⌊v⌋ < 0 ∨ ⌊u⌋ ≥ map.width ∨ ⌊v⌋ ≥ map.height
  · exact ⟨none, if_pos hout, nofun⟩
  · refine ⟨_, if_neg hout, ?_⟩
    rintro _ ⟨⟩
    simp only [not_or, not_lt, ge_iff_le, not_le] at hout
    obtain ⟨hu₀, hv₀, hu₁, hv₁⟩ := hout
    rw [hmap.data, Int.toNat_lt (by positivity)]
    push_cast
    nlinarith

lemma worldToMapCell_of_not_locates (hres : lt (lit 0) map.resolution = true)
    {p : Ros.Vector3 Binary64} (h : ¬map.Locates p) :
    ∃ err, worldToMapCell map p.x p.y = .error err := by
  rw [worldToMapCell_eq hres]
  cases hcol : PyFloat.floor (map.column p.x p.y) with
  | error err => exact ⟨err, rfl⟩
  | ok col =>
    cases hrow : PyFloat.floor (map.row p.x p.y) with
    | error err => exact ⟨err, rfl⟩
    | ok row => exact absurd ⟨floor_ok_iff.mp ⟨col, hcol⟩, floor_ok_iff.mp ⟨row, hrow⟩⟩ h

/-- `_map_cell_summary` raises when the position has no cell coordinates. -/
lemma mapCellSummary_ok_iff {map : Option (OccupancyGrid Binary64)} {pose : PoseStamped Binary64}
    (hmap : ∀ grid ∈ map, grid.WellFormed) :
    (∃ c, mapCellSummary map pose = .ok c) ↔
      ∀ grid ∈ map, grid.frameId = pose.frameId → grid.Locates pose.position := by
  cases map with
  | none => exact iff_of_true ⟨_, rfl⟩ (by simp)
  | some grid =>
    have hgrid := hmap grid rfl
    by_cases hframe : pose.frameId = grid.frameId
    · by_cases hloc : grid.Locates pose.position
      · refine iff_of_true ?_ ?_
        · obtain ⟨c, hc, hindex⟩ := worldToMapCell_of_locates hgrid hloc
          simp only [mapCellSummary, if_neg (not_not.mpr hframe), hc, bind, Except.bind]
          cases c with
          | none => exact ⟨_, rfl⟩
          | some cell =>
            obtain ⟨col, row, index⟩ := cell
            simp only [List.getElem?_eq_getElem (hindex _ rfl)]
            exact ⟨_, rfl⟩
        · rintro _ ⟨⟩ -
          exact hloc
      · refine iff_of_false ?_ fun h => hloc (h grid rfl hframe.symm)
        obtain ⟨err, herr⟩ := worldToMapCell_of_not_locates hgrid.resolution hloc
        simp only [mapCellSummary, if_neg (not_not.mpr hframe), herr, bind, Except.bind]
        rintro ⟨c, hc⟩
        cases hc
    · refine iff_of_true ⟨_, if_pos hframe⟩ ?_
      rintro grid ⟨⟩ h
      exact absurd h.symm hframe

end Cells

/-! ### Goal messages -/

section Goals

open Ros

variable {cfg : Config Binary64} {n : Node Binary64} {msg pose : PoseStamped Binary64}
  {tf : TfBuffer Binary64} {now : ℚ} {summary : ℕ}

/-- The map that was received, if it is one of the map frame, gives the position a cell or finds it
outside. -/
def Node.Locates (n : Node Binary64) (p : Vector3 Binary64) : Prop :=
  ∀ grid ∈ n.map, grid.frameId = "map" → grid.Locates p

/-- The rotation of a goal in the target frame. -/
noncomputable def turnedBy (t : Transform Binary64) (q : Quaternion Binary64) : Mat3 Binary64 :=
  mulRotation (transformToMat t) (quatToMat q)

/-- The rotation has no infinite trace. -/
def TraceFinite (m : Mat3 Binary64) : Prop := (m 0 0 + m 1 1 + m 2 2).val ≠ posInf

/-- A message that is stale, or that cannot be transformed, or that has numbers for which no
operation raises. -/
def Harmless (cfg : Config Binary64) (n : Node Binary64) (msg : PoseStamped Binary64)
    (tf : TfBuffer Binary64) (now : ℚ) : Prop :=
  (0 < msg.stamp.seconds ∧ now - msg.stamp.seconds > cfg.goalFreshS) ∨
  (normalizeFrame msg.frameId = "map" ∧ n.Locates msg.position) ∨
  (normalizeFrame msg.frameId ≠ "map" ∧ ∀ t, tf "map" (normalizeFrame msg.frameId) = some t →
    TraceFinite (turnedBy t msg.orientation) ∧
      n.Locates (applyPoint (transformToMat t) msg.position))

lemma goalInFrame_of_traceFinite (msg : PoseStamped Binary64) {t : Transform Binary64}
    (hframe : msg.frameId ≠ "map") (ht : tf "map" msg.frameId = some t)
    (htrace : TraceFinite (turnedBy t msg.orientation)) :
    ∃ q, goalInFrame tf msg "map" = .ok (some { msg with
      frameId := "map"
      position := applyPoint (transformToMat t) msg.position
      orientation := q }) := by
  obtain ⟨q, hq⟩ := rotToQuat_ok htrace
  refine ⟨q, ?_⟩
  rw [goalInFrame, if_neg hframe, ht]
  exact bind_eq_ok.mpr ⟨q, hq, rfl⟩

lemma goalInFrame_of_not_traceFinite (msg : PoseStamped Binary64) {t : Transform Binary64}
    (hframe : msg.frameId ≠ "map") (ht : tf "map" msg.frameId = some t)
    (htrace : ¬TraceFinite (turnedBy t msg.orientation)) :
    goalInFrame tf msg "map" = .error .zeroDivisionError := by
  rw [goalInFrame, if_neg hframe, ht]
  have hq : rotToQuat (turnedBy t msg.orientation) = .error .zeroDivisionError :=
    rotToQuat_of_posInf (not_not.mp htrace)
  exact congrArg (· >>= _) hq

/-- After the change of frame only the cell can raise. -/
lemma admitGoal_of_goalInFrame (hmap : ∀ grid ∈ n.map, grid.WellFormed)
    (hfresh : ¬(0 < msg.stamp.seconds ∧ now - msg.stamp.seconds > cfg.goalFreshS))
    (hin : goalInFrame tf { msg with frameId := normalizeFrame msg.frameId } "map" =
      .ok (some pose)) (hpose : pose.frameId = "map") :
    (∃ goal, n.admitGoal cfg msg tf now summary = .ok goal) ↔ n.Locates pose.position := by
  have hcell : (∃ c, mapCellSummary n.map (Node.dropStampAndYaw cfg pose) = .ok c) ↔ _ :=
    mapCellSummary_ok_iff hmap
  rw [Node.Locates, ← hpose]
  refine Iff.trans ?_ hcell
  simp only [Node.admitGoal, if_neg hfresh, hin, bind, Except.bind]
  cases mapCellSummary n.map (Node.dropStampAndYaw cfg pose) with
  | error err =>
    refine iff_of_false ?_ ?_
    · rintro ⟨goal, h⟩
      cases h
    · rintro ⟨c, h⟩
      cases h
  | ok c => exact iff_of_true ⟨_, rfl⟩ ⟨c, rfl⟩

lemma admitGoal_ok_iff (summary : ℕ) (hmap : ∀ grid ∈ n.map, grid.WellFormed) :
    (∃ goal, n.admitGoal cfg msg tf now summary = .ok goal) ↔ Harmless cfg n msg tf now := by
  by_cases hstale : 0 < msg.stamp.seconds ∧ now - msg.stamp.seconds > cfg.goalFreshS
  · exact iff_of_true ⟨none, if_pos hstale⟩ (Or.inl hstale)
  rw [Harmless, or_iff_right hstale]
  by_cases hframe : normalizeFrame msg.frameId = "map"
  · rw [admitGoal_of_goalInFrame hmap hstale (if_pos hframe) hframe]
    simp only [hframe, true_and, ne_eq, not_true_eq_false, false_and, or_false]
  simp only [hframe, false_and, ne_eq, not_false_eq_true, true_and, false_or]
  cases ht : tf "map" (normalizeFrame msg.frameId) with
  | none =>
    have hin : goalInFrame tf { msg with frameId := normalizeFrame msg.frameId } "map" =
        .ok none := by
      rw [goalInFrame, if_neg hframe, ht]
      rfl
    refine iff_of_true ⟨none, ?_⟩ (by simp)
    simp only [Node.admitGoal, if_neg hstale, hin]
    rfl
  | some t =>
    by_cases htrace : TraceFinite (turnedBy t msg.orientation)
    · obtain ⟨q, hin⟩ := goalInFrame_of_traceFinite
        { msg with frameId := normalizeFrame msg.frameId } hframe ht htrace
      rw [admitGoal_of_goalInFrame hmap hstale hin rfl]
      constructor
      · rintro h t ⟨⟩
        exact ⟨htrace, h⟩
      · exact fun h => (h t rfl).2
    · refine iff_of_false ?_ fun h => htrace (h t rfl).1
      have hin := goalInFrame_of_not_traceFinite
        { msg with frameId := normalizeFrame msg.frameId } hframe ht htrace
      simp only [Node.admitGoal, if_neg hstale, hin, bind, Except.bind]
      rintro ⟨goal, h⟩
      cases h

/-- The node is there after the message if and only if the message is harmless. -/
lemma World.receiveGoal_iff {w : World Binary64} (sendAt : ℚ)
    (hmap : ∀ grid ∈ w.node.map, grid.WellFormed) :
    (∃ w', w.receiveGoal cfg msg tf now sendAt = some w') ↔ Harmless cfg w.node msg tf now := by
  rw [← admitGoal_ok_iff w.steps hmap]
  simp only [World.receiveGoal, Node.onGoal, bind, Except.bind]
  cases w.node.admitGoal cfg msg tf now w.steps with
  | error err =>
    refine iff_of_false ?_ ?_
    · rintro ⟨w', h⟩
      cases h
    · rintro ⟨goal, h⟩
      cases h
  | ok goal =>
    refine iff_of_true ?_ ⟨goal, rfl⟩
    cases goal with
    | none => exact ⟨_, rfl⟩
    | some goal => exact ⟨_, rfl⟩

/-- In double precision, on any well-formed map, the node is there after a goal message, able to
take a cancel, if and only if the message is harmless. -/
theorem World.survives_goal_iff {w : World Binary64} {e : Event Binary64} {sendAt : ℚ}
    (he : e.goalMessage = some (msg, tf, now, sendAt))
    (hmap : ∀ grid ∈ w.node.map, grid.WellFormed) :
    (∃ w', w.step cfg e = some w' ∧
      ∀ data at', ∃ w'', w'.step cfg (.cancelNavigation data at') = some w'') ↔
      Harmless cfg w.node msg tf now := by
  rw [← World.receiveGoal_iff sendAt hmap]
  have hstep : w.step cfg e = w.receiveGoal cfg msg tf now sendAt := by
    cases e with
    | goalPose | clickedPoint =>
      cases he
      rfl
    | _ => cases he
  rw [hstep]
  constructor
  · rintro ⟨w', h, -⟩
    exact ⟨w', h⟩
  · rintro ⟨w', h⟩
    exact ⟨w', h, fun data at' => ⟨_, rfl⟩⟩

end Goals

end

/-! ### A map of one cell -/

section OneCell

open Ros

attribute [local instance] Libm.atZero

noncomputable def oneCell : OccupancyGrid Binary64 where
  frameId := "map"
  resolution := lit 1
  width := 1
  height := 1
  originPosition := ⟨lit 0, lit 0, lit 0⟩
  originOrientation := .identity
  data := [0]

lemma wellFormed_oneCell : oneCell.WellFormed := by
  refine ⟨?_, rfl⟩
  show (lit 0 : Binary64).val.lt (lit 1 : Binary64).val = true
  rw [lit_zero_val, lit_one_val]
  simp

/-- A goal in the map frame without a stamp. -/
noncomputable def goalAt (x : Binary64) : PoseStamped Binary64 :=
  ⟨"map", ⟨0, 0⟩, ⟨x, lit 0, lit 0⟩, .identity⟩

noncomputable def oneCellConfig : Config Binary64 where
  finalYawToleranceRad := lit 0.25

/-- The world after the map was received. -/
noncomputable def oneCellWorld : World Binary64 :=
  ({} : World Binary64).commit (({} : Node Binary64).onMap oneCell, [])

lemma normalizeFrame_map : normalizeFrame "map" = "map" := by
  decide

lemma wellFormed_oneCellWorld : ∀ grid ∈ oneCellWorld.node.map, grid.WellFormed := by
  rintro _ ⟨⟩
  exact wellFormed_oneCell

/-- On the map of one cell a goal is harmless when its position has a cell. -/
lemma harmless_goalAt_iff {x : Binary64} :
    Harmless oneCellConfig oneCellWorld.node (goalAt x) (fun _ _ => none) 0 ↔
      oneCell.Locates (goalAt x).position := by
  have hfresh : ¬0 < (goalAt x).stamp.seconds := by simp [goalAt, Stamp.seconds]
  have hframe : normalizeFrame (goalAt x).frameId = "map" := normalizeFrame_map
  simp only [Harmless, hfresh, false_and, false_or, hframe, true_and, ne_eq, not_true_eq_false,
    or_false]
  constructor
  · exact fun h => h oneCell rfl rfl
  · rintro h _ ⟨⟩ -
    exact h

/-- A goal at NaN, on a map of one free cell, ends the node. -/
theorem World.nan_ends_node :
    Transition.Run (World.step oneCellConfig) {} [.map oneCell] oneCellWorld ∧
    (∀ grid ∈ oneCellWorld.node.map, grid.WellFormed) ∧
    oneCellWorld.step oneCellConfig
      (.goalPose (goalAt (Binary64.round .nan)) (fun _ _ => none) 0 0) = none := by
  refine ⟨Transition.run_cons_iff.mpr ⟨_, rfl, .nil⟩, wellFormed_oneCellWorld, ?_⟩
  rw [Option.eq_none_iff_forall_ne_some]
  intro w' h
  obtain ⟨⟨u, hu⟩, -⟩ := harmless_goalAt_iff.mp
    ((World.receiveGoal_iff 0 wellFormed_oneCellWorld).mp ⟨w', h⟩)
  have hx : (Binary64.round .nan - lit 0 : Binary64).val = .nan := sub_of_nan (Or.inl rfl)
  have hturned : (Libm.cos (-yawFromQuaternion oneCell.originOrientation) *
      (Binary64.round .nan - lit 0) - Libm.sin (-yawFromQuaternion oneCell.originOrientation) *
        (lit 0 - lit 0)).val = .nan := sub_of_nan (Or.inl (mul_of_nan hx))
  have hcol : (oneCell.column (goalAt (Binary64.round .nan)).position.x
      (goalAt (Binary64.round .nan)).position.y).val = .nan := div_of_nan hturned
  cases hcol.symm.trans hu

/-- A goal at the origin of this map does not. -/
theorem World.survives_goal_iff_oneCell :
    ∃ w', oneCellWorld.step oneCellConfig
        (.goalPose (goalAt (lit 0)) (fun _ _ => none) 0 0) = some w' ∧
      ∀ data at', ∃ w'', w'.step oneCellConfig (.cancelNavigation data at') = some w'' := by
  refine (World.survives_goal_iff rfl wellFormed_oneCellWorld).mpr (harmless_goalAt_iff.mpr ?_)
  have hzero : (lit 0 - lit 0 : Binary64).val = fin 0 := sub_of_zero lit_zero_val lit_zero_val
  have hres : oneCell.resolution.val = fin 1 := lit_one_val
  have hsin : (ofReal 0).IsFinite := ⟨0, ofReal_zero_val⟩
  have hcos : (ofReal 1).IsFinite := by
    rw [← Rat.cast_one (α := ℝ)]
    exact ⟨1, lit_one_val⟩
  refine ⟨⟨0, div_of_zero ?_ hres⟩, ⟨0, div_of_zero ?_ hres⟩⟩
  · exact sub_of_zero (mul_of_zero hcos hzero) (mul_of_zero hsin hzero)
  · exact add_of_zero (mul_of_zero hsin hzero) (mul_of_zero hcos hzero)

end OneCell

end GoalNav
