import HumanoidNavigation.GravityOverride.Floor

/-!
# Aligning two directions

`rotationToAlign` is the function of `ransac_gravity_override.py`, of which `localizer.py` has a
copy. Directions that are almost opposite are turned by the half turn about the x axis, whichever
they are. This takes one onto the other exactly when both are almost orthogonal to this axis, as a
direction is that is almost opposite to the vertical.
-/

namespace GravityOverride

open Matrix Rotation

/-- A proper rotation that takes `nFrom` onto `nTo`, up to `2e-9` if the two are almost
parallel. -/
structure Aligns (r : Ros.Mat3 ℝ) (nFrom nTo : Vec ℝ) : Prop where
  rotation : r ∈ specialOrthogonalGroup (Fin 3) ℝ
  exact : 1 / 10 ^ 9 ≤ length (nFrom ⨯₃ nTo) → r *ᵥ nFrom = nTo
  close : length (nFrom ⨯₃ nTo) < 1 / 10 ^ 9 → length (r *ᵥ nFrom - nTo) ≤ 2 / 10 ^ 9

variable {asQuat : Ros.Mat3 ℝ → Ros.Quaternion ℝ} {nFrom nTo n : Vec ℝ}

/-! ### The branches -/

lemma rotationToAlign_of_acute (hs : length (nFrom ⨯₃ nTo) < 1 / 10 ^ 9) (hc : 0 < nFrom ⬝ᵥ nTo) :
    rotationToAlign (.real asQuat) nFrom nTo = 1 := by
  rw [length] at hs
  simp only [rotationToAlign, real_sqrt, hs, hc, if_true]

lemma rotationToAlign_of_obtuse (hs : length (nFrom ⨯₃ nTo) < 1 / 10 ^ 9)
    (hc : ¬0 < nFrom ⬝ᵥ nTo) :
    rotationToAlign (.real asQuat) nFrom nTo = diagonal ![1, -1, -1] := by
  rw [length] at hs
  simp only [rotationToAlign, real_sqrt, hs, hc, if_true, if_false]

lemma aligns_of_le (hfrom : nFrom ⬝ᵥ nFrom = 1) (hto : nTo ⬝ᵥ nTo = 1)
    (hs : 1 / 10 ^ 9 ≤ length (nFrom ⨯₃ nTo)) :
    Aligns (rotationToAlign (.real asQuat) nFrom nTo) nFrom nTo := by
  obtain ⟨hmem, halign⟩ := rotationToAlign_spec asQuat hfrom hto hs
  exact ⟨hmem, fun _ => halign, fun hlt => absurd hs hlt.not_ge⟩

lemma aligns_of_acute (hfrom : nFrom ⬝ᵥ nFrom = 1) (hto : nTo ⬝ᵥ nTo = 1)
    (hs : length (nFrom ⨯₃ nTo) < 1 / 10 ^ 9) (hc : 0 < nFrom ⬝ᵥ nTo) :
    Aligns (rotationToAlign (.real asQuat) nFrom nTo) nFrom nTo := by
  rw [rotationToAlign_of_acute hs hc]
  refine ⟨one_mem _, fun hle => absurd hs hle.not_gt, fun _ => ?_⟩
  rw [length_le_iff (by norm_num), one_mulVec]
  have hsq := (length_lt_iff (by norm_num)).mp hs
  calc (nFrom - nTo) ⬝ᵥ (nFrom - nTo)
      ≤ 2 * ((nFrom ⨯₃ nTo) ⬝ᵥ (nFrom ⨯₃ nTo)) := sub_dotProduct_sub_le hfrom hto hc.le
    _ ≤ 2 * (1 / 10 ^ 9) ^ 2 := by gcongr
    _ ≤ (2 / 10 ^ 9) ^ 2 := by norm_num

/-- The half turn about the x axis. -/
lemma diagonal_mulVec_sub (hfrom : nFrom ⬝ᵥ nFrom = 1) (hto : nTo ⬝ᵥ nTo = 1) :
    (diagonal ![1, -1, -1] *ᵥ nFrom - nTo) ⬝ᵥ (diagonal ![1, -1, -1] *ᵥ nFrom - nTo) =
      2 * (1 + nFrom ⬝ᵥ nTo - 2 * (nFrom 0 * nTo 0)) := by
  have hturned := mulVec_dotProduct_mulVec (v := nFrom) (w := nFrom) diagonal_mem
  rw [sub_dotProduct_sub (hturned.trans hfrom) hto]
  simp [dotProduct, Fin.sum_univ_three, mulVec_diagonal]
  ring

lemma aligns_iff_of_obtuse (hfrom : nFrom ⬝ᵥ nFrom = 1) (hto : nTo ⬝ᵥ nTo = 1)
    (hs : length (nFrom ⨯₃ nTo) < 1 / 10 ^ 9) (hc : ¬0 < nFrom ⬝ᵥ nTo) :
    Aligns (rotationToAlign (.real asQuat) nFrom nTo) nFrom nTo ↔
      1 + nFrom ⬝ᵥ nTo ≤ 2 * (nFrom 0 * nTo 0) + 2 / 10 ^ 18 := by
  rw [rotationToAlign_of_obtuse hs hc]
  have hclose : length (diagonal ![1, -1, -1] *ᵥ nFrom - nTo) ≤ 2 / 10 ^ 9 ↔
      1 + nFrom ⬝ᵥ nTo ≤ 2 * (nFrom 0 * nTo 0) + 2 / 10 ^ 18 := by
    rw [length_le_iff (by norm_num), diagonal_mulVec_sub hfrom hto]
    constructor <;> intro h <;> norm_num at h ⊢ <;> linarith
  constructor
  · intro h
    exact hclose.mp (h.close hs)
  · intro h
    exact ⟨diagonal_mem, fun hle => absurd hs hle.not_gt, fun _ => hclose.mpr h⟩

/-! ### When the rotation aligns -/

variable (asQuat) in
/-- The function does what it says unless the directions are almost opposite and not almost
orthogonal to the x axis. -/
theorem rotationToAlign_aligns_iff (hfrom : nFrom ⬝ᵥ nFrom = 1) (hto : nTo ⬝ᵥ nTo = 1) :
    Aligns (rotationToAlign (.real asQuat) nFrom nTo) nFrom nTo ↔
      1 / 10 ^ 9 ≤ length (nFrom ⨯₃ nTo) ∨ 0 < nFrom ⬝ᵥ nTo ∨
        1 + nFrom ⬝ᵥ nTo ≤ 2 * (nFrom 0 * nTo 0) + 2 / 10 ^ 18 := by
  by_cases hs : 1 / 10 ^ 9 ≤ length (nFrom ⨯₃ nTo)
  · exact iff_of_true (aligns_of_le hfrom hto hs) (Or.inl hs)
  replace hs := not_le.mp hs
  by_cases hc : 0 < nFrom ⬝ᵥ nTo
  · exact iff_of_true (aligns_of_acute hfrom hto hs hc) (Or.inr (Or.inl hc))
  · rw [aligns_iff_of_obtuse hfrom hto hs hc]
    simp only [hs.not_ge, hc, false_or]

theorem rotationToAlign_aligns_quarter :
    Aligns (rotationToAlign (.real scipyQuat) ![1, 0, 0] ![0, 1, 0]) ![1, 0, 0] ![0, 1, 0] := by
  refine (rotationToAlign_aligns_iff scipyQuat (by simp) (by simp)).mpr (Or.inl ?_)
  have hlength : length (![1, 0, 0] ⨯₃ ![0, 1, 0] : Vec ℝ) = 1 := by
    simp [length, cross_apply, dotProduct, Fin.sum_univ_three]
  rw [hlength]
  norm_num

/-- The half turn keeps the direction of the x axis. -/
theorem not_aligns_x :
    (![1, 0, 0] : Vec ℝ) ⬝ᵥ ![1, 0, 0] = 1 ∧ (![-1, 0, 0] : Vec ℝ) ⬝ᵥ ![-1, 0, 0] = 1 ∧
      ¬Aligns (rotationToAlign (.real scipyQuat) ![1, 0, 0] ![-1, 0, 0]) ![1, 0, 0]
        ![-1, 0, 0] := by
  have hcross : length (![1, 0, 0] ⨯₃ ![-1, 0, 0] : Vec ℝ) = 0 := by
    simp [length, cross_apply, dotProduct, Fin.sum_univ_three]
  refine ⟨by simp, by simp, ?_⟩
  rw [aligns_iff_of_obtuse (by simp) (by simp) (by rw [hcross]; norm_num) (by simp)]
  norm_num

/-- Exactly opposite directions. -/
theorem rotationToAlign_neg (hn : n ⬝ᵥ n = 1) :
    Aligns (rotationToAlign (.real asQuat) n (-n)) n (-n) ↔ |n 0| ≤ 1 / 10 ^ 9 := by
  have hcross : n ⨯₃ (-n) = 0 := by simp
  have hdot : n ⬝ᵥ (-n) = -1 := by rw [dotProduct_neg, hn]
  rw [aligns_iff_of_obtuse hn (by simpa using hn) (by rw [hcross]; norm_num)
    (by rw [hdot]; norm_num), hdot, Pi.neg_apply]
  have habs : |n 0| ≤ 1 / 10 ^ 9 ↔ n 0 ^ 2 ≤ (1 / 10 ^ 9) ^ 2 := by
    rw [sq_le_sq, abs_of_pos (by norm_num : (0 : ℝ) < 1 / 10 ^ 9)]
  rw [habs]
  constructor <;> intro h <;> norm_num at h ⊢ <;> linarith

/-- The programs only ask for the vertical, which they get. -/
theorem rotationToAlign_up (hn : n ⬝ᵥ n = 1) :
    Aligns (rotationToAlign (.real asQuat) n up) n up := by
  rcases le_or_gt (1 / 10 ^ 9) (length (n ⨯₃ up)) with hs | hs
  · exact aligns_of_le hn up_unit hs
  by_cases hc : 0 < n ⬝ᵥ up
  · exact aligns_of_acute hn up_unit hs hc
  rw [aligns_iff_of_obtuse hn up_unit hs hc]
  have hopposite := one_add_dotProduct_le hn up_unit (not_lt.mp hc)
  have hsq := (length_lt_iff (by norm_num)).mp hs
  have hx : n 0 * (up : Vec ℝ) 0 = 0 := by simp [up]
  rw [hx]
  norm_num at hsq ⊢
  linarith

end GravityOverride
