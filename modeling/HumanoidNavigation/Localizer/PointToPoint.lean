import HumanoidNavigation.Localizer.Icp
import HumanoidNavigation.Rotation.Svd

/-!
# Point-to-point registration is optimal and rigid

In exact arithmetic an iteration of `icp` or `icp_2d` moves the source points by the proper rigid
motion that is best for the current matches, in any dimension: its rotation is `Kabsch.fit`. So the
pose stays rigid over the iterations, and in the plane the rotation stays one about the z axis.
-/

namespace Localizer

open PyFloat Except Ros NpArray Rotation
open Matrix (specialOrthogonalGroup orthogonalGroup diagonal vecMulVec mulVec)

attribute [local instance] PyFloat.real

variable {lib : Numerics ℝ} {n : ℕ}

/-! ### What the libraries promise -/

/-- `np.linalg.svd` returns a decomposition with descending singular values. -/
structure Numerics.SvdLaw (lib : Numerics ℝ) : Prop where
  left {n : ℕ} (H : Matrix (Fin n) (Fin n) ℝ) : (lib.svd H).1 ∈ orthogonalGroup (Fin n) ℝ
  right {n : ℕ} (H : Matrix (Fin n) (Fin n) ℝ) : (lib.svd H).2.2 ∈ orthogonalGroup (Fin n) ℝ
  nonneg {n : ℕ} (H : Matrix (Fin n) (Fin n) ℝ) (i : Fin n) : 0 ≤ (lib.svd H).2.1 i
  antitone {n : ℕ} (H : Matrix (Fin n) (Fin n) ℝ) : Antitone (lib.svd H).2.1
  eq {n : ℕ} (H : Matrix (Fin n) (Fin n) ℝ) :
    H = (lib.svd H).1 * diagonal (lib.svd H).2.1 * (lib.svd H).2.2

/-- `tree.query` returns the index of a point of the tree. -/
def Numerics.NearestLaw (lib : Numerics ℝ) : Prop :=
  ∀ {n : ℕ} (tree : KdTree (Fin n → ℝ)) p d i, lib.nearest tree p = some (d, i) →
    i < tree.points.length

lemma Numerics.SvdLaw.isSvd (h : lib.SvdLaw) (H : Matrix (Fin (n + 1)) (Fin (n + 1)) ℝ) :
    Kabsch.IsSvd H (lib.svd H).1 (lib.svd H).2.1 (lib.svd H).2.2 (Fin.last n) where
  left := h.left H
  right := h.right H
  nonneg := h.nonneg H
  least i := h.antitone H (Fin.le_last i)
  eq := h.eq H

/-! ### The increment of one iteration -/

lemma negateLastRow_eq (Vt : Matrix (Fin (n + 1)) (Fin (n + 1)) ℝ) :
    negateLastRow Vt = Kabsch.flip (Fin.last n) Vt := by
  rw [negateLastRow, Kabsch.flip]
  congr 1
  funext j
  simp

lemma bestRotation_eq (H : Matrix (Fin (n + 1)) (Fin (n + 1)) ℝ) :
    bestRotation lib H = Kabsch.fit (Fin.last n) (lib.svd H).1 (lib.svd H).2.2 := by
  simp only [bestRotation, Kabsch.fit, matMul_eq, det_eq, negateLastRow_eq, real_lt, real_lit,
    Rat.cast_zero, decide_eq_true_eq]

section Pairs

variable (pairs : List ((Fin (n + 1) → ℝ) × (Fin (n + 1) → ℝ)))

/-- The source points of the matches, as a family. -/
def sources (k : Fin pairs.length) : Fin (n + 1) → ℝ := pairs[k].1

/-- The target points of the matches. -/
def targets (k : Fin pairs.length) : Fin (n + 1) → ℝ := pairs[k].2

/-- The sum of the squared distances of the matches, the source points moved by `M`. -/
noncomputable def matchError (M : Matrix (Fin (n + 1 + 1)) (Fin (n + 1 + 1)) ℝ) : ℝ :=
  (pairs.map fun m => (transformPt M m.1 - m.2) ⬝ᵥ (transformPt M m.1 - m.2)).sum

lemma mean_map {α : Type} (l : List α) (f : α → Fin n → ℝ) :
    mean (l.map f) = Kabsch.centroid fun k : Fin l.length => f l[k] := by
  funext i
  rw [mean_eq, List.map_map, List.length_map, Kabsch.centroid, Pi.smul_apply, Finset.sum_apply,
    Fintype.card_fin, smul_eq_mul, div_eq_inv_mul]
  exact congrArg _ (Fin.sum_univ_fun_getElem l fun m => f m i).symm

lemma covariance_eq :
    covariance pairs = Kabsch.crossCovariance (sources pairs) (targets pairs) := by
  ext i j
  simp only [covariance, sum_eq, mean_map]
  rw [← Fin.sum_univ_fun_getElem, Kabsch.crossCovariance, Matrix.sum_apply]
  rfl

lemma alignment_eq :
    alignment lib pairs =
      let H := Kabsch.crossCovariance (sources pairs) (targets pairs)
      let R := Kabsch.fit (Fin.last n) (lib.svd H).1 (lib.svd H).2.2
      (R, Kabsch.centroid (targets pairs) - mulVec R (Kabsch.centroid (sources pairs))) := by
  simp only [alignment, covariance_eq, bestRotation_eq, mean_map, matVec_eq]
  rfl

lemma matchError_affine (R : Matrix (Fin (n + 1)) (Fin (n + 1)) ℝ) (t : Fin (n + 1) → ℝ) :
    matchError pairs (affine R t) = Kabsch.squaredError (sources pairs) (targets pairs) R t := by
  rw [matchError, ← Fin.sum_univ_fun_getElem, Kabsch.squaredError]
  simp only [transformPt_eq, act_affine]
  rfl

end Pairs

variable {pairs : List ((Fin (n + 1) → ℝ) × (Fin (n + 1) → ℝ))}
  {M T T' : Matrix (Fin (n + 1 + 1)) (Fin (n + 1 + 1)) ℝ}

lemma increment_eq : increment lib pairs = affine (alignment lib pairs).1 (alignment lib pairs).2 :=
  eyeWith_eq _ _

lemma isRigid_increment (hsvd : lib.SvdLaw) : IsRigid (increment lib pairs) := by
  rw [increment_eq, alignment_eq]
  exact isRigid_affine (Kabsch.fit_mem _ (hsvd.left _) (hsvd.right _)) _

/-- No proper rigid motion brings the matches closer. -/
lemma matchError_increment_le (hsvd : lib.SvdLaw) (hM : IsRigid M) :
    matchError pairs (increment lib pairs) ≤ matchError pairs M := by
  obtain ⟨R, hR, t, rfl⟩ := hM
  rw [increment_eq, alignment_eq, matchError_affine, matchError_affine]
  exact Kabsch.squaredError_fit_le (hsvd.isSvd _) hR t

/-! ### One iteration -/

lemma mem_masked {tree : KdTree (Fin n → ℝ)} {maxDist : ℝ} {srcT : List (Fin n → ℝ)}
    {m : (Fin n → ℝ) × ℕ} (h : m ∈ masked lib tree maxDist srcT) :
    ∃ d, lib.nearest tree m.1 = some (d, m.2) := by
  obtain ⟨p, -, hp⟩ := List.mem_filterMap.mp h
  obtain ⟨⟨d, i⟩, hc, rfl⟩ := Option.map_eq_some_iff.mp hp
  exact ⟨d, (Option.filter_eq_some_iff.mp hc).1⟩

lemma gather_ok {α β : Type} {a : List α} {mask : List (β × ℕ)} (h : ∀ m ∈ mask, m.2 < a.length) :
    ∃ l, gather a mask = .ok l := by
  induction mask with
  | nil => exact ⟨[], rfl⟩
  | cons m mask ih =>
    obtain ⟨l, hl⟩ := ih fun m' hm' => h m' (List.mem_cons_of_mem m hm')
    refine ⟨(m.1, a.get ⟨m.2, h m List.mem_cons_self⟩) :: l, ?_⟩
    rw [gather] at hl ⊢
    rw [List.mapM_cons, List.getElem?_eq_getElem (h m List.mem_cons_self), hl]
    rfl

lemma gather_length {α β : Type} {a : List α} {mask : List (β × ℕ)} {l : List (β × α)}
    (h : gather a mask = .ok l) : l.length = mask.length := by
  induction mask generalizing l with
  | nil =>
    cases h
    rfl
  | cons m mask ih =>
    rw [gather, List.mapM_cons] at h
    obtain ⟨x, -, h⟩ := bind_eq_ok.mp h
    obtain ⟨l', hl', h⟩ := bind_eq_ok.mp h
    cases h
    rw [List.length_cons, List.length_cons, ih hl']

section Iteration

variable {tree : KdTree (Fin (n + 1) → ℝ)} {tgt src : List (Fin (n + 1) → ℝ)} {maxDist : ℝ}

/-- An iteration that does not break moves the pose by the increment of its matches. -/
lemma icpIteration_ok (h : icpIteration lib tree tgt src maxDist T = .ok (some T')) :
    ∃ pairs, 20 ≤ pairs.length ∧
      gather tgt (masked lib tree maxDist (transformPts src T)) = .ok pairs ∧
      T' = increment lib pairs * T := by
  simp only [icpIteration] at h
  split_ifs at h with hlen
  · cases h
  · obtain ⟨pairs, hpairs, h⟩ := bind_eq_ok.mp h
    cases h
    refine ⟨pairs, ?_, hpairs, matMul_eq _ _⟩
    rw [gather_length hpairs]
    exact not_lt.mp hlen

/-- It does not raise when the tree is that of the target. -/
lemma exists_icpIteration (hnearest : lib.NearestLaw) (tgt src : List (Fin (n + 1) → ℝ))
    (maxDist : ℝ) (T : Matrix (Fin (n + 1 + 1)) (Fin (n + 1 + 1)) ℝ) :
    ∃ o, icpIteration lib ⟨tgt⟩ tgt src maxDist T = .ok o := by
  simp only [icpIteration]
  split_ifs
  · exact ⟨none, rfl⟩
  · have hindex : ∀ m ∈ masked lib ⟨tgt⟩ maxDist (transformPts src T), m.2 < tgt.length := by
      intro m hm
      obtain ⟨d, hd⟩ := mem_masked hm
      exact hnearest _ _ _ _ hd
    obtain ⟨pairs, hpairs⟩ := gather_ok hindex
    exact ⟨_, bind_eq_ok.mpr ⟨pairs, hpairs, rfl⟩⟩

lemma isRigid_of_icpIteration (hsvd : lib.SvdLaw) (hT : IsRigid T)
    (h : icpIteration lib tree tgt src maxDist T = .ok (some T')) : IsRigid T' := by
  obtain ⟨pairs, -, -, rfl⟩ := icpIteration_ok h
  exact (isRigid_increment hsvd).mul hT

lemma exists_iterate_icpIteration (hsvd : lib.SvdLaw) (hnearest : lib.NearestLaw)
    (tgt src : List (Fin (n + 1) → ℝ)) (maxDist : ℝ) (iterations : ℕ) (hT : IsRigid T) :
    ∃ T', iterate (icpIteration lib ⟨tgt⟩ tgt src maxDist) iterations T = .ok T' ∧ IsRigid T' := by
  obtain ⟨T', hT'⟩ := exists_iterate (exists_icpIteration hnearest tgt src maxDist) iterations T
  exact ⟨T', hT', iterate_invariant (fun _ _ ha h => isRigid_of_icpIteration hsvd ha h) hT hT'⟩

end Iteration

lemma score_ok (lib : Numerics ℝ) (tree : KdTree (Fin n → ℝ)) (maxDist : ℝ) (src : List (Fin n → ℝ))
    (T : Matrix (Fin (n + 1)) (Fin (n + 1)) ℝ) :
    ∃ fitness rmse, score lib tree maxDist src T = .ok (fitness, rmse) ∧ 0 ≤ fitness ∧
      fitness ≤ 1 := by
  set dists := (transformPts src T).filterMap fun p =>
    (correspondence lib tree maxDist p).map Prod.fst
  have hle : dists.length ≤ max src.length 1 :=
    (List.length_filterMap_le _ _).trans (by simp [transformPts])
  have hpos : (0 : ℝ) < (max src.length 1 : ℕ) := Nat.cast_pos.mpr (lt_max_of_lt_right one_pos)
  have hdiv : div (lit dists.length) (lit (max src.length 1 : ℕ)) =
      (.ok ((dists.length : ℝ) / (max src.length 1 : ℕ)) : Except PyError ℝ) := by
    simp only [real_lit, Rat.cast_natCast]
    exact if_neg hpos.ne'
  refine ⟨_, _, bind_eq_ok.mpr ⟨_, hdiv, rfl⟩, by positivity, ?_⟩
  rw [div_le_one hpos]
  exact_mod_cast hle

/-! ### The plane -/

/-- The motion leaves the direction of the z axis alone. -/
def FixesZAxis (T : Mat4 ℝ) : Prop := T 0 2 = 0 ∧ T 1 2 = 0 ∧ T 2 2 = 1

lemma planarPart_eq (T : Mat4 ℝ) : planarPart T =
    affine (n := 2) (fun i j => T (i.castLE (by decide)) (j.castLE (by decide)))
      fun i => T (i.castLE (by decide)) 3 := eyeWith_eq _ _

/-- The motion in the plane of a rotation about the z axis is rigid. -/
lemma isRigid_planarPart {T : Mat4 ℝ} (hT : IsRigid T) (hz : FixesZAxis T) :
    IsRigid (planarPart T) := by
  obtain ⟨R, hR, t, rfl⟩ := hT
  obtain ⟨hmem, hdet⟩ := Matrix.mem_specialOrthogonalGroup_iff.mp hR
  obtain ⟨h02, h12, h22⟩ : R 0 2 = 0 ∧ R 1 2 = 0 ∧ R 2 2 = 1 := hz
  have hrow (i j : Fin 3) := congrFun₂ ((Matrix.mem_orthogonalGroup_iff (Fin 3) ℝ).mp hmem) i j
  simp only [Matrix.mul_apply, Fin.sum_univ_three, Matrix.transpose_apply] at hrow
  have h00 : R 0 0 * R 0 0 + R 0 1 * R 0 1 + R 0 2 * R 0 2 = 1 := hrow 0 0
  have h01 : R 0 0 * R 1 0 + R 0 1 * R 1 1 + R 0 2 * R 1 2 = 0 := hrow 0 1
  have h11 : R 1 0 * R 1 0 + R 1 1 * R 1 1 + R 1 2 * R 1 2 = 1 := hrow 1 1
  rw [Matrix.det_fin_three, h02, h12, h22] at hdet
  rw [h02] at h00 h01
  rw [h12] at h11
  rw [planarPart_eq]
  refine isRigid_affine (Matrix.mem_specialOrthogonalGroup_fin_two_iff.mpr ⟨?_, ?_, ?_⟩) _
  · show R 0 0 = R 1 1
    linear_combination -R 0 0 * h11 + R 1 0 * h01 + R 1 1 * hdet
  · show R 0 1 = -R 1 0
    linear_combination -R 0 1 * h11 + R 1 1 * h01 - R 1 0 * hdet
  · show R 0 0 ^ 2 + R 0 1 ^ 2 = 1
    linear_combination h00

/-- A rigid motion of the plane, at any height, is one of space. -/
lemma isRigid_ofPlanarPart {T2 : Mat3 ℝ} (hT2 : IsRigid T2) (z : ℝ) :
    IsRigid (ofPlanarPart T2 z) ∧ FixesZAxis (ofPlanarPart T2 z) := by
  obtain ⟨A, hA, t, rfl⟩ := hT2
  obtain ⟨h00, h01, hsq⟩ := Matrix.mem_specialOrthogonalGroup_fin_two_iff.mp hA
  rw [h01, neg_sq] at hsq
  have hR : !![A 0 0, A 0 1, 0; A 1 0, A 1 1, 0; 0, 0, 1] ∈ specialOrthogonalGroup (Fin 3) ℝ := by
    rw [h01, ← h00]
    refine Matrix.mem_specialOrthogonalGroup_iff.mpr ⟨?_, ?_⟩
    · rw [Matrix.mem_orthogonalGroup_iff]
      ext i j
      fin_cases i <;> fin_cases j <;> simp [Matrix.mul_apply, Fin.sum_univ_three] <;>
        first | linear_combination hsq | ring
    · rw [Matrix.det_fin_three]
      simp
      linear_combination hsq
  have heq : ofPlanarPart (affine A t) z =
      affine !![A 0 0, A 0 1, 0; A 1 0, A 1 1, 0; 0, 0, 1] ![t 0, t 1, z] := by
    ext i j
    fin_cases i <;> fin_cases j <;> simp [ofPlanarPart, affine, Fin.snoc] <;> rfl
  refine ⟨heq ▸ isRigid_affine hR _, ?_⟩
  simp [FixesZAxis, ofPlanarPart]

/-! ### The whole registration -/

/-- The index of the nearest point. -/
noncomputable def nearestIndex (pts : List (Fin n → ℝ)) (p : Fin n → ℝ) :
    Option (Fin pts.length) :=
  (List.finRange pts.length).argmin fun i => ∑ j, (p j - pts[i] j) ^ 2

/-- The functions on points that are more than a voxel apart, with the least squares for points that
match. -/
noncomputable def Numerics.exact : Numerics ℝ where
  inf := 0
  svd H := ((Kabsch.exists_isSvd H).choose, (Kabsch.exists_isSvd H).choose_spec.choose,
    (Kabsch.exists_isSvd H).choose_spec.choose_spec.choose)
  nearest tree p := (nearestIndex tree.points p).map fun i =>
    (√(∑ j, (p j - tree.points.get i j) ^ 2), i.val)
  lstsq _ _ := .ok 0
  fromYawDeg a := aboutZ (a * Real.pi / lit 180)
  fromRotvec v := aboutZ v.z
  voxelDownSampleNormals pts _ := .ok pts

lemma Numerics.svdLaw_exact : exact.SvdLaw where
  left H := (Kabsch.exists_isSvd H).choose_spec.choose_spec.choose_spec.1
  right H := (Kabsch.exists_isSvd H).choose_spec.choose_spec.choose_spec.2.1
  nonneg H := (Kabsch.exists_isSvd H).choose_spec.choose_spec.choose_spec.2.2.1
  antitone H := (Kabsch.exists_isSvd H).choose_spec.choose_spec.choose_spec.2.2.2.1
  eq H := (Kabsch.exists_isSvd H).choose_spec.choose_spec.choose_spec.2.2.2.2

lemma Numerics.nearestLaw_exact : exact.NearestLaw := by
  intro n tree p d i h
  obtain ⟨k, -, h⟩ := Option.map_eq_some_iff.mp h
  cases h
  exact k.isLt

/-- The nearest point to one of the points is that point. -/
lemma Numerics.nearest_of_mem {tree : KdTree (Fin n → ℝ)} {p : Fin n → ℝ} (h : p ∈ tree.points) :
    ∃ i, exact.nearest tree p = some (0, i) ∧ tree.points[i]? = some p := by
  obtain ⟨k, hk, rfl⟩ := List.getElem_of_mem h
  obtain ⟨i, hi⟩ : ∃ i, nearestIndex tree.points tree.points[k] = some i := by
    rw [← Option.ne_none_iff_exists', nearestIndex, ne_eq, List.argmin_eq_none]
    exact List.ne_nil_of_mem (List.mem_finRange ⟨k, hk⟩)
  have hle := List.le_of_mem_argmin (List.mem_finRange ⟨k, hk⟩) hi
  have hzero : ∑ j, (tree.points[k] j - tree.points[i] j) ^ 2 = 0 :=
    le_antisymm (hle.trans (by simp)) (Finset.sum_nonneg fun j _ => sq_nonneg _)
  have heq : tree.points[i] = tree.points[k] := by
    funext j
    have hj := (Finset.sum_eq_zero_iff_of_nonneg fun j _ => sq_nonneg _).mp hzero j
      (Finset.mem_univ j)
    exact (sub_eq_zero.mp (pow_eq_zero_iff two_ne_zero |>.mp hj)).symm
  refine ⟨i, Option.map_eq_some_iff.mpr ⟨i, hi, ?_⟩, ?_⟩
  · exact congrArg (fun x => (x, i.val)) ((congrArg Real.sqrt hzero).trans Real.sqrt_zero)
  · rw [← heq]
    exact List.getElem?_eq_getElem i.isLt

/-- A scan of twenty points in the plane. -/
def corner : List (Vector3 ℝ) := (List.range 20).map fun k : ℕ => ⟨k, (k % 3 : ℕ), 0⟩

/-- The same points after a quarter turn about the z axis. -/
def turnedCorner : List (Vector3 ℝ) := corner.map fun p => ⟨-p.y, p.x, 0⟩

noncomputable def quarterTurn : Mat4 ℝ := affine (aboutZ (Real.pi / lit 2)) 0

lemma matchError_quarterTurn :
    matchError ((corner.map coords).zip (turnedCorner.map coords)) quarterTurn = 0 := by
  rw [matchError, List.sum_eq_zero]
  intro x hx
  rw [turnedCorner, List.map_map, List.zip_map', List.map_map] at hx
  obtain ⟨p, hp, rfl⟩ := List.mem_map.mp hx
  have hmove : transformPt quarterTurn (coords p) = coords ⟨-p.y, p.x, p.z⟩ := by
    rw [transformPt_eq, quarterTurn, act_affine]
    funext i
    fin_cases i <;> simp [aboutZ, coords, real_lit]
  have hz : p.z = 0 := by
    obtain ⟨k, -, rfl⟩ := List.mem_map.mp hp
    rfl
  change (transformPt quarterTurn (coords p) - coords ⟨-p.y, p.x, 0⟩) ⬝ᵥ _ = 0
  rw [hmove, hz, sub_self, zero_dotProduct]

end Localizer
