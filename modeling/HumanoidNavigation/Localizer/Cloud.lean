import HumanoidNavigation.GravityOverride.Node
import HumanoidNavigation.Numeric.Binary32
import Mathlib.Data.List.GetD

/-!
# Point clouds as messages

`pc2_to_xyz` and `xyz_to_pc2` of `localizer.py`. A message may put its coordinates anywhere in a
record; what is read are the finite points of the records, in order, and encoding and decoding a
list of points leaves its finite points.
-/

namespace Localizer

open ExtFloat GravityOverride
open Binary32 (Word ofBytes toBytes words number encode units)

/-- A `sensor_msgs/PointField`; the datatype of `float32` is 7. -/
structure PointField where
  name : String
  offset : ℕ
  datatype : ℕ
  count : ℕ
  deriving DecidableEq

/-- A `sensor_msgs/PointCloud2` -/
structure PointCloud2 where
  stamp : Ros.Stamp
  frameId : String
  height : ℕ
  width : ℕ
  fields : List PointField
  isBigendian : Bool
  pointStep : ℕ
  rowStep : ℕ
  data : List UInt8
  isDense : Bool
  deriving DecidableEq

/-- What `pc2_to_xyz` reads of a message. -/
def PointCloud2.scan (msg : PointCloud2) : GravityOverride.PointCloud2 where
  stamp := msg.stamp
  frameId := msg.frameId
  height := msg.height
  width := msg.width
  fields := msg.fields.map fun f => ⟨f.name, f.offset⟩
  pointStep := msg.pointStep
  data := msg.data

section

variable {K : Type} [Field K]

/-- `pc2_to_xyz`, which is the same function in both programs -/
def pc2ToXyz (msg : PointCloud2) : Option (List (Vec K)) := GravityOverride.pc2ToXyz msg.scan

variable [LinearOrder K] [FloorRing K]

/-- A row of `pts.astype(np.float32).tobytes()` -/
def rowBytes (p : Fin 3 → ExtFloat K) : List UInt8 :=
  toBytes (encode (p 0)) ++ toBytes (encode (p 1)) ++ toBytes (encode (p 2))

/-- `xyz_to_pc2` -/
def xyzToPc2 (pts : List (Fin 3 → ExtFloat K)) (frameId : String) (stamp : Ros.Stamp) :
    PointCloud2 where
  stamp
  frameId
  height := 1
  width := pts.length
  fields := [⟨"x", 0, 7, 1⟩, ⟨"y", 4, 7, 1⟩, ⟨"z", 8, 7, 1⟩]
  isBigendian := false
  pointStep := 12
  rowStep := 12 * pts.length
  isDense := true
  data := pts.flatMap rowBytes

end

/-! ### Words of a message -/

/-- The word of the four bytes from place `k` on. -/
def wordAt (data : List UInt8) (k : ℕ) : Word :=
  ofBytes (data.getD k 0) (data.getD (k + 1) 0) (data.getD (k + 2) 0) (data.getD (k + 3) 0)

/-- The coordinates of record `i`, at these places of the record. -/
def PointCloud2.record (msg : PointCloud2) (offsets : Fin 3 → ℕ) (i : ℕ) : Fin 3 → Word :=
  fun c => wordAt msg.data (i * msg.pointStep + offsets c)

lemma take_drop_eq_toBytes {data : List UInt8} {k : ℕ} (hk : k + 4 ≤ data.length) :
    (data.drop k).take 4 = toBytes (wordAt data k) := by
  rw [wordAt, Binary32.toBytes_ofBytes]
  refine List.ext_getElem (by simp; omega) fun i hi _ => ?_
  have hi' : i < 4 := lt_of_lt_of_le hi (List.length_take_le _ _)
  rw [List.getElem_take, List.getElem_drop]
  obtain rfl | rfl | rfl | rfl : i = 0 ∨ i = 1 ∨ i = 2 ∨ i = 3 := by omega
  all_goals simp only [List.getElem_cons_zero, List.getElem_cons_succ]
  all_goals exact (List.getD_eq_getElem _ _ (by omega)).symm

/-! ### Numbers -/

section Field

variable {K : Type} [Field K]

/-- A finite number. -/
def finite : ExtFloat K → Option K
  | fin x => some x
  | _ => none

/-- A point all of whose coordinates are finite. -/
def finitePoint (p : Fin 3 → ExtFloat K) : Option (Vec K) := do
  return ![← finite (p 0), ← finite (p 1), ← finite (p 2)]

lemma finite_value (w : Word) :
    finite (Binary32.value w : ExtFloat K) =
      if Binary32.isFinite w then some (number w) else none := by
  simp only [Binary32.value]
  split_ifs
  · rfl
  · rfl
  · rfl
  · rfl

variable [LinearOrder K] [IsStrictOrderedRing K]

/-- The units of a number by its exponent, as powers of two. -/
lemma units_div (m : ℕ) : (units m : K) / 2 ^ 149 =
    if m / 2 ^ 23 = 0 then ((m % 2 ^ 23 : ℕ) : K) / 2 ^ 149
    else if m / 2 ^ 23 < 150 then (2 ^ 23 + ((m % 2 ^ 23 : ℕ) : K)) / 2 ^ (150 - m / 2 ^ 23)
    else (2 ^ 23 + ((m % 2 ^ 23 : ℕ) : K)) * 2 ^ (m / 2 ^ 23 - 150) := by
  have htwo : (2 : K) ≠ 0 := two_ne_zero
  have hcast : ((2 ^ 23 + m % 2 ^ 23 : ℕ) : K) = 2 ^ 23 + ((m % 2 ^ 23 : ℕ) : K) := by
    rw [Nat.cast_add, Nat.cast_pow, Nat.cast_ofNat]
  by_cases hzero : m / 2 ^ 23 = 0
  · have hsmall : m < 2 ^ 23 := by omega
    rw [if_pos hzero, units, if_pos hsmall, Nat.mod_eq_of_lt hsmall]
  · rw [if_neg hzero, units, if_neg (by omega), Nat.cast_mul, hcast, Nat.cast_pow, Nat.cast_ofNat]
    split_ifs with hlt
    · have hpow : (2 : K) ^ (m / 2 ^ 23 - 1) * 2 ^ (150 - m / 2 ^ 23) = 2 ^ 149 := by
        rw [← pow_add]
        congr 1
        omega
      rw [div_eq_div_iff (pow_ne_zero _ htwo) (pow_ne_zero _ htwo), mul_assoc, hpow]
    · have hpow : (2 : K) ^ (m / 2 ^ 23 - 1) = 2 ^ (m / 2 ^ 23 - 150) * 2 ^ 149 := by
        rw [← pow_add]
        congr 1
        omega
      rw [hpow, ← mul_assoc, mul_div_cancel_right₀ _ (pow_ne_zero _ htwo)]

lemma float32_eq (w : Word) : float32 w.toNat = finite (Binary32.value w : ExtFloat K) := by
  have hw := w.isLt
  have hexponent : w.toNat / 2 ^ 23 % 2 ^ 8 = w.toNat % 2 ^ 31 / 2 ^ 23 := by omega
  have hfraction : w.toNat % 2 ^ 23 = w.toNat % 2 ^ 31 % 2 ^ 23 := by omega
  have hsign : w.toNat / 2 ^ 31 = 0 ↔ w.toNat < 2 ^ 31 := by omega
  have hfinite : Binary32.isFinite w = true ↔ ¬w.toNat % 2 ^ 31 / 2 ^ 23 = 255 := by
    rw [Binary32.isFinite, decide_eq_true_eq, Binary32.infinity_eq]
    omega
  rw [finite_value]
  simp only [float32, hexponent, hfraction, hsign, hfinite, number, units_div]
  split_ifs <;> simp only [neg_mul, one_mul, neg_div]

lemma frombuffer_eq (bytes : List UInt8) : frombuffer (K := K) bytes =
    (words bytes).map (·.map fun w => finite (Binary32.value w)) := by
  induction bytes using frombuffer.induct with
  | case1 => rfl
  | case2 b₀ b₁ b₂ b₃ bytes ih =>
    rw [words, frombuffer, ih, ← Binary32.ofBytes_toNat, float32_eq, Option.map_map, Option.map_map]
    rfl
  | case3 bytes hnil hcons => simp [words, frombuffer]

/-! ### The layout of a message -/

/-- The last field of this name is a number at this place of the records. -/
structure HasAxis (msg : PointCloud2) (ax : String) (offset : ℕ) : Prop where
  field : ∃ pre f post, msg.fields = pre ++ f :: post ∧ f.name = ax ∧ f.offset = offset ∧
    f.datatype = 7 ∧ ∀ g ∈ post, g.name ≠ ax
  fits : offset + 4 ≤ msg.pointStep

/-- The fields have the coordinates, and the data has all records. -/
structure HasLayout (msg : PointCloud2) (offsets : Fin 3 → ℕ) : Prop where
  littleEndian : msg.isBigendian = false
  x : HasAxis msg "x" (offsets 0)
  y : HasAxis msg "y" (offsets 1)
  z : HasAxis msg "z" (offsets 2)
  length : msg.data.length = msg.width * msg.height * msg.pointStep

variable {msg : PointCloud2} {ax : String} {offset : ℕ} {offsets : Fin 3 → ℕ}

omit [LinearOrder K] [IsStrictOrderedRing K] [Field K] in
lemma HasAxis.find (h : HasAxis msg ax offset) :
    msg.scan.fields.reverse.find? (·.name = ax) = some ⟨ax, offset⟩ := by
  obtain ⟨pre, f, post, hfields, rfl, rfl, -, hpost⟩ := h.field
  have hnone : (post.map fun f => (⟨f.name, f.offset⟩ : GravityOverride.PointField)).reverse.find?
      (·.name = f.name) = none := by
    simpa using hpost
  simp only [PointCloud2.scan, hfields, List.map_append, List.map_cons, List.reverse_append,
    List.reverse_cons, List.append_assoc, List.find?_append, hnone, Option.none_or]
  simp

/-- The rows of `raw`. -/
def PointCloud2.raw (msg : PointCloud2) : List (List UInt8) :=
  (List.range (msg.width * msg.height)).map fun i =>
    (msg.data.drop (i * msg.pointStep)).take msg.pointStep

omit [LinearOrder K] [IsStrictOrderedRing K] [Field K] in
/-- The bytes of a column are those of its words. -/
lemma column_bytes (h : HasAxis msg ax offset)
    (hlength : msg.data.length = msg.width * msg.height * msg.pointStep) :
    (msg.raw.flatMap fun row => (row.drop offset).take 4) =
      ((List.range (msg.width * msg.height)).map fun i =>
        wordAt msg.data (i * msg.pointStep + offset)).flatMap toBytes := by
  rw [PointCloud2.raw, List.flatMap_map, List.flatMap_map]
  refine List.flatMap_congr fun i hi => ?_
  have hrow : (i + 1) * msg.pointStep ≤ msg.data.length := by
    rw [hlength]
    exact Nat.mul_le_mul_right _ (List.mem_range.mp hi)
  have hfits := h.fits
  rw [← take_drop_eq_toBytes (by rw [add_mul] at hrow; omega), List.drop_take, List.drop_drop,
    List.take_take, min_eq_left (by omega)]

lemma readAxis_eq (h : HasAxis msg ax offset)
    (hlength : msg.data.length = msg.width * msg.height * msg.pointStep) :
    readAxis (K := K) msg.scan msg.raw ax =
      some ((List.range (msg.width * msg.height)).map fun i =>
        finite (Binary32.value (wordAt msg.data (i * msg.pointStep + offset)))) := by
  rw [readAxis, h.find]
  simp only [Option.bind_eq_bind, Option.bind_some]
  rw [column_bytes h hlength, frombuffer_eq, Binary32.words_flatMap_toBytes, Option.map_some,
    List.map_map, Option.bind_some]
  exact if_pos (by simp [PointCloud2.raw])

lemma pc2ToXyz_of_layout (h : HasLayout msg offsets) : pc2ToXyz (K := K) msg =
    some ((List.range (msg.width * msg.height)).filterMap fun i =>
      finitePoint fun c => Binary32.value (msg.record offsets i c)) := by
  have hlength : ¬msg.scan.data.length ≠ msg.scan.width * msg.scan.height * msg.scan.pointStep :=
    not_not.mpr h.length
  simp only [pc2ToXyz, GravityOverride.pc2ToXyz, if_neg hlength]
  have hx := readAxis_eq (K := K) h.x h.length
  have hy := readAxis_eq (K := K) h.y h.length
  have hz := readAxis_eq (K := K) h.z h.length
  rw [PointCloud2.raw] at hx hy hz
  simp only [PointCloud2.scan] at hx hy hz ⊢
  rw [hx, hy, hz]
  simp only [Option.bind_eq_bind, Option.bind_some, List.zip_map', List.filterMap_map]
  rfl

/-- Only the coordinates of the records matter. -/
lemma pc2ToXyz_congr {msg' : PointCloud2} {offsets' : Fin 3 → ℕ} (h : HasLayout msg offsets)
    (h' : HasLayout msg' offsets') (hn : msg'.width * msg'.height = msg.width * msg.height)
    (hrecord : ∀ i < msg.width * msg.height, msg'.record offsets' i = msg.record offsets i) :
    pc2ToXyz (K := K) msg' = pc2ToXyz msg := by
  rw [pc2ToXyz_of_layout h, pc2ToXyz_of_layout h', hn]
  refine congrArg some (List.filterMap_congr fun i hi => ?_)
  rw [hrecord i (List.mem_range.mp hi)]

end Field

/-! ### Encoding -/

section FloorRing

variable {K : Type} [Field K] [LinearOrder K] [IsStrictOrderedRing K] [FloorRing K]
  {pts : List (Fin 3 → ExtFloat K)} {frameId : String} {stamp : Ros.Stamp}

/-- An element of a list whose elements are written with the same number of bytes. -/
lemma getD_flatMap {α β : Type} {f : α → List β} {k : ℕ} (hf : ∀ a, (f a).length = k) (l : List α)
    {i j : ℕ} (hi : i < l.length) (hj : j < k) (d : β) :
    (l.flatMap f).getD (i * k + j) d = (f l[i]).getD j d := by
  induction l generalizing i with
  | nil => simp at hi
  | cons a l ih =>
    rw [List.flatMap_cons]
    cases i with
    | zero =>
      rw [zero_mul, zero_add, List.getD_append _ _ _ _ (by rw [hf]; exact hj)]
      rfl
    | succ i =>
      rw [List.getD_append_right _ _ _ _ (by rw [hf, add_mul]; omega), hf]
      have hplace : (i + 1) * k + j - k = i * k + j := by
        rw [add_mul]
        omega
      rw [hplace, ih (by simpa using hi)]
      rfl

omit [IsStrictOrderedRing K] in
lemma hasLayout_xyzToPc2 (pts : List (Fin 3 → ExtFloat K)) (frameId : String) (stamp : Ros.Stamp) :
    HasLayout (xyzToPc2 pts frameId stamp) ![0, 4, 8] where
  littleEndian := rfl
  x := ⟨⟨[], _, _, rfl, rfl, rfl, rfl, by simp⟩, by simp [xyzToPc2]⟩
  y := ⟨⟨[⟨"x", 0, 7, 1⟩], _, _, rfl, rfl, rfl, rfl, by simp⟩, by simp [xyzToPc2]⟩
  z := ⟨⟨[⟨"x", 0, 7, 1⟩, ⟨"y", 4, 7, 1⟩], _, _, rfl, rfl, rfl, rfl, by simp⟩, by simp [xyzToPc2]⟩
  length := by simp [xyzToPc2, rowBytes, List.length_flatMap]

lemma wordAt_flatMap {α : Type} {f : α → List UInt8} {k : ℕ} (hf : ∀ a, (f a).length = k)
    (l : List α) {i j : ℕ} (hi : i < l.length) (hj : j + 4 ≤ k) :
    wordAt (l.flatMap f) (i * k + j) = wordAt (f l[i]) j := by
  have hbyte (b : ℕ) (hb : b < 4) :
      (l.flatMap f).getD (i * k + j + b) 0 = (f l[i]).getD (j + b) 0 := by
    rw [add_assoc, getD_flatMap hf l hi (by omega)]
  rw [wordAt, wordAt, hbyte 1 (by norm_num), hbyte 2 (by norm_num), hbyte 3 (by norm_num)]
  exact congrArg (ofBytes · _ _ _) (hbyte 0 (by norm_num))

omit [IsStrictOrderedRing K] in
/-- The words of a record are those of its point. -/
lemma record_xyzToPc2 {i : ℕ} (hi : i < pts.length) (c : Fin 3) :
    (xyzToPc2 pts frameId stamp).record ![0, 4, 8] i c = encode (pts[i] c) := by
  have hrow (p : Fin 3 → ExtFloat K) : (rowBytes p).length = 12 := rfl
  have hplace : (xyzToPc2 pts frameId stamp).record ![0, 4, 8] i c =
      wordAt (rowBytes pts[i]) (![0, 4, 8] c) := by
    refine wordAt_flatMap hrow pts hi ?_
    fin_cases c <;> simp
  rw [hplace]
  fin_cases c
  · exact Binary32.ofBytes_of_toBytes _
  · exact Binary32.ofBytes_of_toBytes _
  · exact Binary32.ofBytes_of_toBytes _

/-- The coordinates are singles, an infinity or NaN. -/
def IsSingle (p : Fin 3 → ExtFloat K) : Prop := ∀ c, ∃ w, p c = Binary32.value w

lemma pc2ToXyz_xyzToPc2 (hpts : ∀ p ∈ pts, IsSingle p) :
    pc2ToXyz (xyzToPc2 pts frameId stamp) = some (pts.filterMap finitePoint) := by
  have hpoint {i : ℕ} (hi : i < pts.length) : (fun c => Binary32.value (K := K)
      ((xyzToPc2 pts frameId stamp).record ![0, 4, 8] i c)) = pts[i] := by
    funext c
    obtain ⟨w, hw⟩ := hpts _ (List.getElem_mem hi) c
    rw [record_xyzToPc2 hi, hw]
    exact Binary32.round_value w
  have hlist : ((List.range pts.length).map fun i c => Binary32.value (K := K)
      ((xyzToPc2 pts frameId stamp).record ![0, 4, 8] i c)) = pts := by
    refine List.ext_getElem (by simp) fun i hi hi' => ?_
    rw [List.getElem_map, List.getElem_range, hpoint hi']
  have hn : (xyzToPc2 pts frameId stamp).width * (xyzToPc2 pts frameId stamp).height =
      pts.length := mul_one _
  rw [pc2ToXyz_of_layout (hasLayout_xyzToPc2 pts frameId stamp), hn]
  conv_rhs => rw [← hlist, List.filterMap_map]
  rfl

/-- Decoding undoes encoding on singles, and it reads the finite points of any layout and nothing
else. -/
theorem pc2ToXyz_spec :
    (∀ (pts : List (Fin 3 → ExtFloat K)) (frameId : String) (stamp : Ros.Stamp),
      (∀ p ∈ pts, IsSingle p) →
        pc2ToXyz (xyzToPc2 pts frameId stamp) = some (pts.filterMap finitePoint)) ∧
    ∀ (msg : PointCloud2) (offsets : Fin 3 → ℕ), HasLayout msg offsets →
      pc2ToXyz (K := K) msg = some ((List.range (msg.width * msg.height)).filterMap fun i =>
        finitePoint fun c => Binary32.value (msg.record offsets i c)) ∧
      ∀ (msg' : PointCloud2) (offsets' : Fin 3 → ℕ), HasLayout msg' offsets' →
        msg'.width * msg'.height = msg.width * msg.height →
        (∀ i < msg.width * msg.height, msg'.record offsets' i = msg.record offsets i) →
          pc2ToXyz (K := K) msg' = pc2ToXyz msg :=
  ⟨fun _ _ _ hpts => pc2ToXyz_xyzToPc2 hpts, fun _ _ h =>
    ⟨pc2ToXyz_of_layout h, fun _ _ h' hn hrecord => pc2ToXyz_congr h h' hn hrecord⟩⟩

/-- Two records of fifteen bytes with a field before the coordinates and one after them, in which
`z` is before `x`. The first one is the point `(1, 2, -1 / 2)` and the second one has NaN. -/
def unalignedMessage : PointCloud2 where
  stamp := ⟨0, 0⟩
  frameId := "camera_init"
  height := 2
  width := 1
  fields := [⟨"z", 1, 7, 1⟩, ⟨"y", 10, 7, 1⟩, ⟨"ring", 0, 2, 1⟩, ⟨"x", 6, 7, 1⟩]
  isBigendian := false
  pointStep := 15
  rowStep := 15
  data := [9, 0, 0, 0, 191, 5, 0, 0, 128, 63, 0, 0, 0, 64, 7,
    3, 0, 0, 192, 127, 1, 0, 0, 128, 63, 0, 0, 0, 64, 2]
  isDense := false

lemma hasLayout_unaligned : HasLayout unalignedMessage ![6, 10, 1] where
  littleEndian := rfl
  x := ⟨⟨[_, _, _], _, [], rfl, rfl, rfl, rfl, by simp⟩, by decide⟩
  y := ⟨⟨[_], _, [_, _], rfl, rfl, rfl, rfl, by simp⟩, by decide⟩
  z := ⟨⟨[], _, [_, _, _], rfl, rfl, rfl, rfl, by simp⟩, by decide⟩
  length := rfl

theorem pc2ToXyz_unaligned : HasLayout unalignedMessage ![6, 10, 1] ∧
    pc2ToXyz (K := ℚ) unalignedMessage = some [![1, 2, -1 / 2]] := by
  obtain ⟨-, hlayout⟩ := pc2ToXyz_spec (K := ℚ)
  obtain ⟨hread, -⟩ := hlayout unalignedMessage ![6, 10, 1] hasLayout_unaligned
  exact ⟨hasLayout_unaligned, hread.trans (by decide +kernel)⟩

end FloorRing

end Localizer
