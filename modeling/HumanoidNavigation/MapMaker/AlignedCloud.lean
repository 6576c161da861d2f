import HumanoidNavigation.MapMaker.FloorFrame
import HumanoidNavigation.MapMaker.Pcd
import HumanoidNavigation.Numeric.NpDouble

/-!
# The aligned cloud

`main` of `align_pcd_floor.py` rewrites the points and the normals of a file. The file that it
writes has the header of the one it reads, and both programs read the aligned records from it.
-/

namespace AlignPcdFloor

open Binary64 ExtFloat NpDouble Pcd PyFloat Text
open Binary32 (Word value number)

section

variable {F : Type} [NpDouble F]

/-- `np.isfinite(..).all(axis=1)` -/
abbrev AllFinite (v : Fin 3 → Word) : Prop := ∀ i, Binary32.isFinite (v i) = true

/-- `np.linalg.norm(..) > 0.0`, where the norm is a single -/
noncomputable def nonzeroNormal (n : Fin 3 → Word) : Bool :=
  (fin 0).lt (Binary32.norm (value (n 0)) (value (n 1)) (value (n 2)))

/-- `.astype(np.float64)` of three columns -/
def widen (v : Fin 3 → Word) : Fin 3 → F := fun i => ofSingle (v i)

/-- The row of the cloud after the two assignments. -/
noncomputable def alignRecord (fr : Frame F) (r : Record) : Record where
  xyz := if AllFinite r.xyz then fun i => toSingle (fr.move (widen r.xyz) i) else r.xyz
  intensity := r.intensity
  normal :=
    if AllFinite r.normal ∧ nonzeroNormal r.normal then
      fun i => toSingle (fr.rotate (widen r.normal) i)
    else r.normal
  curvature := r.curvature

/-- The file that `main` writes. -/
noncomputable def alignedFile (a b c : F) (input : List UInt8) : Except PcdError (List UInt8) := do
  let (header, cloud) ← readBinaryPcd input
  match frame a b c with
  | .error err => .error (.arithmetic err)
  | .ok fr => return header.flatten ++ tobytes (cloud.map (alignRecord fr))

/-! ### The frame -/

/-- No plane makes the arithmetic raise. -/
lemma frame_eq_ok (a b c : F) : ∃ fr, frame a b c = .ok fr := by
  have hone : nearestDouble (1 : ℝ) = 1 := nearestDouble_two_zpow (e := 0) (by norm_num)
  have hlo : -overflow < (1 : ℝ) := neg_overflow_lt zero_le_one
  have hunit : NotBelow 1 (toBinary64 (lit 1 : F)) := by
    rw [toBinary64_lit, Rat.cast_one]
    refine Or.inr (atLeast_of_fin (ofReal_val hone ?_))
    rw [abs_one]
    exact one_lt_zpow₀ one_lt_two (by norm_num)
  have hsum : NotBelow 1 (toBinary64 (lit 1 + a * a + b * b : F)) := by
    simp only [toBinary64_add, toBinary64_mul]
    exact (hunit.add (notBelow_sq _) hone hlo (by norm_num)).add (notBelow_sq _) hone hlo
      (by norm_num)
  obtain ⟨r, hr, hscale⟩ := hsum.sqrt zero_le_one hone hlo (by rw [Real.sqrt_one])
  obtain ⟨s, hs, rfl⟩ := sqrt_eq_ok _ hr
  obtain ⟨q, hq⟩ := div_eq_ok c s (hscale.ne_zero one_pos)
  rw [frame, scale, hs]
  simp only [bind, Except.bind, hq]
  exact ⟨_, rfl⟩

/-! ### Records -/

/-- The word is the nearest single of the double. -/
structure Rounds (x : F) (w : Word) : Prop where
  eq : w = toSingle x
  value : Binary32.value (K := ℝ) w = Binary32.round (toBinary64 x).val

/-- What `main` makes of a record. A normal that is not zero is kept as well when its coordinates
are so small that their squares vanish. -/
structure Aligned (fr : Frame F) (r r' : Record) : Prop where
  intensity : r'.intensity = r.intensity
  curvature : r'.curvature = r.curvature
  keepsXyz : ¬AllFinite r.xyz → r'.xyz = r.xyz
  movesXyz : AllFinite r.xyz → ∀ i, Rounds (fr.move (widen r.xyz) i) (r'.xyz i)
  keepsNormal : (¬AllFinite r.normal ∨ ∀ i, |(number (r.normal i) : ℝ)| ≤ 1 / 2 ^ 75) →
    r'.normal = r.normal
  rotatesNormal : AllFinite r.normal → (∃ i, 1 / 2 ^ 75 < |(number (r.normal i) : ℝ)|) →
    ∀ i, Rounds (fr.rotate (widen r.normal) i) (r'.normal i)

lemma nonzeroNormal_iff {n : Fin 3 → Word} (hn : AllFinite n) :
    nonzeroNormal n = true ↔ ∃ i, 1 / 2 ^ 75 < |(number (n i) : ℝ)| := by
  rw [nonzeroNormal, Binary32.value_of_isFinite (hn 0), Binary32.value_of_isFinite (hn 1),
    Binary32.value_of_isFinite (hn 2), Binary32.zero_lt_norm_iff]
  constructor
  · rintro (h | h | h)
    · exact ⟨0, h⟩
    · exact ⟨1, h⟩
    · exact ⟨2, h⟩
  · rintro ⟨i, h⟩
    fin_cases i
    · exact Or.inl h
    · exact Or.inr (Or.inl h)
    · exact Or.inr (Or.inr h)

lemma rounds_toSingle (x : F) : Rounds x (toSingle x) := ⟨rfl, value_toSingle x⟩

lemma aligned_alignRecord (fr : Frame F) (r : Record) : Aligned fr r (alignRecord fr r) where
  intensity := rfl
  curvature := rfl
  keepsXyz h := if_neg h
  movesXyz h i := by
    have hxyz : (alignRecord fr r).xyz = fun i => toSingle (fr.move (widen r.xyz) i) := if_pos h
    rw [hxyz]
    exact rounds_toSingle _
  keepsNormal h := by
    refine if_neg fun ⟨hfinite, hnonzero⟩ => ?_
    obtain ⟨i, hi⟩ := (nonzeroNormal_iff hfinite).mp hnonzero
    rcases h with h | h
    · exact h hfinite
    · exact (h i).not_gt hi
  rotatesNormal h hlarge i := by
    have hnormal : (alignRecord fr r).normal = fun i => toSingle (fr.rotate (widen r.normal) i) :=
      if_pos ⟨h, (nonzeroNormal_iff h).mpr hlarge⟩
    rw [hnormal]
    exact rounds_toSingle _

/-! ### Files -/

lemma alignedFile_eq {a b c : F} {input : List UInt8} {header : List (List UInt8)}
    {cloud : List Record} {fr : Frame F} (h : readBinaryPcd input = .ok (header, cloud))
    (hfr : frame a b c = .ok fr) :
    alignedFile a b c input = .ok (header.flatten ++ tobytes (cloud.map (alignRecord fr))) := by
  simp only [alignedFile, h, bind, Except.bind, hfr]
  rfl

/-- The file has the header and the aligned records, and it is accepted; where the header is plain,
`load_xyz` returns the finite points of the records before and after. -/
theorem aligned_file {K : Type} [Field K] (a b c : F) {input : List UInt8}
    {header : List (List UInt8)} {cloud : List Record}
    (h : readBinaryPcd input = .ok (header, cloud)) : ∃ fr out cloud', frame a b c = .ok fr ∧
      alignedFile a b c input = .ok out ∧ readBinaryPcd out = .ok (header, cloud') ∧
      List.Forall₂ (Aligned fr) cloud cloud' ∧
      (Plain header → ∀ pts, loadXyz (K := K) input = .ok pts →
        pts = finitePoints cloud ∧ loadXyz (K := K) out = .ok (finitePoints cloud')) := by
  obtain ⟨fr, hfr⟩ := frame_eq_ok a b c
  have hlength : (cloud.map (alignRecord fr)).length = cloud.length := List.length_map _
  have hread := readBinaryPcd_replace h hlength
  refine ⟨fr, _, _, hfr, alignedFile_eq h hfr, hread, ?_, fun hplain pts hpts => ?_⟩
  · exact List.forall₂_map_right_iff.mpr (List.forall₂_same.mpr fun r _ => aligned_alignRecord fr r)
  · rw [loadXyz_of_read h hplain] at hpts
    split_ifs at hpts with hlt
    rw [loadXyz_of_read hread hplain, hlength, if_pos hlt]
    exact ⟨(Except.ok.inj hpts).symm, rfl⟩

end

/-! ### Two files -/

/-- The lines of a header before the number of the points. -/
def fieldLines : List (List UInt8) :=
  [ascii "FIELDS x y z intensity normal_x normal_y normal_z curvature\n",
    ascii "SIZE 4 4 4 4 4 4 4 4\n", ascii "TYPE F F F F F F F F\n"]

def plainHeader : List (List UInt8) := fieldLines ++ [ascii "POINTS 1\n", ascii "DATA binary\n"]

/-- A point with a normal of the length `2 ^ -100`. -/
def tinyRecord : Record := ⟨![0, 0, 0], 0, ![0, 0, 0x0D800000], 0⟩

def tinyFile : List UInt8 := plainHeader.flatten ++ tobytes [tinyRecord]

/-- A header for no points, in which `load_xyz` finds one point after an indented `DATA` line. -/
def shadowedHeader : List (List UInt8) :=
  fieldLines ++ [ascii "POINTS 1\n", ascii " DATA binary\n", ascii "#.........\n",
    ascii "POINTS 0\n", ascii "DATA binary\n"]

lemma readBinaryPcd_tinyFile : readBinaryPcd tinyFile = .ok (plainHeader, [tinyRecord]) := by
  decide +kernel

lemma readBinaryPcd_shadowed : readBinaryPcd shadowedHeader.flatten = .ok (shadowedHeader, []) := by
  decide +kernel

attribute [local instance] Libm.atZero

theorem aligned_file_tiny : ∃ fr out cloud', frame (lit 0 : Binary64) (lit 0) (lit 0) = .ok fr ∧
    alignedFile (lit 0 : Binary64) (lit 0) (lit 0) tinyFile = .ok out ∧
    readBinaryPcd out = .ok (plainHeader, cloud') ∧ List.Forall₂ (Aligned fr) [tinyRecord] cloud' ∧
    loadXyz (K := ℚ) tinyFile = .ok [⟨0, 0, 0⟩] ∧
    loadXyz (K := ℚ) out = .ok (finitePoints cloud') := by
  obtain ⟨fr, out, cloud', hfr, hout, hread, haligned, hload⟩ :=
    aligned_file (K := ℚ) (lit 0 : Binary64) (lit 0) (lit 0) readBinaryPcd_tinyFile
  have hpts : loadXyz (K := ℚ) tinyFile = .ok [⟨0, 0, 0⟩] := by decide +kernel
  obtain ⟨-, hload⟩ := hload (by decide +kernel) _ hpts
  exact ⟨fr, out, cloud', hfr, hout, hread, haligned, hpts, hload⟩

/-! The normal of the tiny record is kept on the level plane, whose frame turns it around, and from
the other file `load_xyz` returns a point where there is no record. -/

section Tiny

variable {fr : Frame Binary64}

lemma neg_one_val : (lit (-1) : Binary64).val = fin (-1) := by
  have h := lit_val (q := -1) (k := -1) (e := 0) (by norm_num) (by norm_num) (by norm_num)
    (by norm_num)
  rwa [Rat.cast_neg, Rat.cast_one] at h

/-- The scale of the level plane is one. -/
lemma scale_level : ∃ s : Binary64, scale (lit 0) (lit 0) = .ok s ∧ s.val = fin 1 := by
  have hzero : (lit 0 * lit 0 : Binary64).val = fin 0 := mul_of_zero ⟨0, lit_zero_val⟩ lit_zero_val
  have hsum : (lit 1 + lit 0 * lit 0 + lit 0 * lit 0 : Binary64).val = fin 1 :=
    add_zero_val (add_zero_val lit_one_val hzero) hzero
  have hroot : (lit 1 + lit 0 * lit 0 + lit 0 * lit 0 : Binary64).sqrt = .ok (ofReal 1) := by
    rw [Binary64.sqrt, hsum]
    simp only [if_neg zero_le_one.not_gt, Real.sqrt_one]
  refine ⟨ofReal 1, hroot, ?_⟩
  have hone : (lit 1 : Binary64) = ofReal ((1 : ℚ) : ℝ) := rfl
  rw [← lit_one_val, hone, Rat.cast_one]

/-- The level plane has its normal against the z axis. -/
lemma frame_level (hfr : frame (lit 0 : Binary64) (lit 0) (lit 0) = .ok fr) :
    (fr.rotation 2 0).val = fin 0 ∧ (fr.rotation 2 1).val = fin 0 ∧
      (fr.rotation 2 2).val = fin (-1) := by
  obtain ⟨s, hs, hone⟩ := scale_level
  rw [frame, hs] at hfr
  obtain ⟨s', hs', hfr⟩ := Except.bind_eq_ok.mp hfr
  obtain rfl := Except.ok.inj hs'
  obtain ⟨q, -, hfr⟩ := Except.bind_eq_ok.mp hfr
  obtain rfl := Except.ok.inj hfr
  exact ⟨div_one_val lit_zero_val hone, div_one_val lit_zero_val hone, div_one_val neg_one_val hone⟩

lemma allFinite_tiny : AllFinite tinyRecord.normal := by decide

lemma number_tiny : (number (tinyRecord.normal 2) : ℝ) = 2 ^ (-100 : ℤ) := by
  have htoNat : (tinyRecord.normal 2).toNat = 0x0D800000 := rfl
  simp only [number, htoNat]
  norm_num [Binary32.units]

/-- The normal of the tiny record points to the other side in the frame. -/
lemma rotate_tiny (hfr : frame (lit 0 : Binary64) (lit 0) (lit 0) = .ok fr) :
    (fr.rotate (widen tinyRecord.normal) 2).val = fin (-2 ^ (-100 : ℤ)) := by
  obtain ⟨h₀, h₁, h₂⟩ := frame_level hfr
  have hrotate : fr.rotate (widen tinyRecord.normal) 2 =
      widen tinyRecord.normal 0 * fr.rotation 2 0 + (widen tinyRecord.normal 1 * fr.rotation 2 1 +
        (widen tinyRecord.normal 2 * fr.rotation 2 2 + lit 0)) := rfl
  have hfinite (i : Fin 3) : (widen tinyRecord.normal i : Binary64).IsFinite :=
    ⟨_, Binary32.value_of_isFinite (allFinite_tiny i)⟩
  have htiny : (widen tinyRecord.normal 2 : Binary64).val = fin (2 ^ (-100 : ℤ)) := by
    rw [← number_tiny]
    exact Binary32.value_of_isFinite (allFinite_tiny 2)
  have hneg : (widen tinyRecord.normal 2 * fr.rotation 2 2).val = fin (-2 ^ (-100 : ℤ)) := by
    have hround : nearestDouble (-2 ^ (-100 : ℤ) : ℝ) = -2 ^ (-100 : ℤ) := by
      rw [nearestDouble_neg, nearestDouble_two_zpow (by norm_num)]
    have hmul := mul_val htiny h₂
    rw [mul_neg_one] at hmul
    refine hmul hround ?_
    rw [abs_neg, abs_of_pos (zpow_pos two_pos _)]
    exact zpow_lt_zpow_right₀ one_lt_two (by norm_num)
  have hfirst := mul_of_zero (hfinite 0) h₀
  have hsecond := mul_of_zero (hfinite 1) h₁
  rw [hrotate]
  exact zero_add_val hfirst (zero_add_val hsecond (add_zero_val hneg lit_zero_val))

/-- The squares of its normal vanish. -/
lemma normal_tiny (fr : Frame Binary64) :
    (alignRecord fr tinyRecord).normal = tinyRecord.normal := by
  refine (aligned_alignRecord fr tinyRecord).keepsNormal (Or.inr fun i => ?_)
  have hzero : (number (0 : Word) : ℝ) = 0 := by simp [number, Binary32.units]
  fin_cases i
  · show |(number (0 : Word) : ℝ)| ≤ 1 / 2 ^ 75
    rw [hzero, abs_zero]
    positivity
  · show |(number (0 : Word) : ℝ)| ≤ 1 / 2 ^ 75
    rw [hzero, abs_zero]
    positivity
  · show |(number (tinyRecord.normal 2) : ℝ)| ≤ 1 / 2 ^ 75
    rw [number_tiny, abs_of_pos (zpow_pos two_pos _)]
    norm_num

theorem not_aligned_file :
    (∃ fr out r', frame (lit 0 : Binary64) (lit 0) (lit 0) = .ok fr ∧
      alignedFile (lit 0 : Binary64) (lit 0) (lit 0) tinyFile = .ok out ∧
      readBinaryPcd out = .ok (plainHeader, [r']) ∧ AllFinite tinyRecord.normal ∧
      (number (tinyRecord.normal 2) : ℝ) ≠ 0 ∧ r'.normal = tinyRecord.normal ∧
      ¬Rounds (fr.rotate (widen tinyRecord.normal) 2) (r'.normal 2)) ∧
    ∃ out pts, alignedFile (lit 0 : Binary64) (lit 0) (lit 0) shadowedHeader.flatten = .ok out ∧
      readBinaryPcd out = .ok (shadowedHeader, []) ∧
      loadXyz (K := ℚ) shadowedHeader.flatten = .ok pts ∧ loadXyz (K := ℚ) out = .ok pts ∧
      pts ≠ finitePoints [] := by
  obtain ⟨fr, hfr⟩ := frame_eq_ok (lit 0 : Binary64) (lit 0) (lit 0)
  constructor
  · refine ⟨fr, _, alignRecord fr tinyRecord, hfr, alignedFile_eq readBinaryPcd_tinyFile hfr,
      readBinaryPcd_replace readBinaryPcd_tinyFile rfl, allFinite_tiny, ?_, normal_tiny fr, ?_⟩
    · rw [number_tiny]
      positivity
    · rintro ⟨hword, -⟩
      have hencode : tinyRecord.normal 2 = Binary32.encode (fin (-2 ^ (-100 : ℤ) : ℝ)) := by
        rw [← rotate_tiny hfr]
        exact (congrFun (normal_tiny fr) 2).symm.trans hword
      have hsign : (tinyRecord.normal 2).toNat < 2 ^ 31 := by decide
      rw [hencode, Binary32.encode_lt_iff] at hsign
      exact hsign (neg_neg_of_pos (zpow_pos two_pos _))
  · have hout := alignedFile_eq readBinaryPcd_shadowed hfr
    rw [List.map_nil, tobytes, List.flatMap_nil, List.flatMap_nil, List.append_nil] at hout
    have hpts : loadXyz (K := ℚ) shadowedHeader.flatten = .ok [⟨11415075 / 288230376151711744,
        5707543 / 144115188075855872, 9273128960⟩] := by
      decide +kernel
    exact ⟨_, _, hout, readBinaryPcd_shadowed, hpts, hpts, List.cons_ne_nil _ _⟩

end Tiny

end AlignPcdFloor
