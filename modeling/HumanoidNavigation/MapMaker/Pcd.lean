import HumanoidNavigation.Numeric.Binary32
import HumanoidNavigation.Ros.Messages
import HumanoidNavigation.Text.Lines

/-!
# Files of points

`read_binary_pcd` of `align_pcd_floor.py` and `load_xyz` of `make_nav2_map.py` read a PCD file: text
up to a `DATA` line, and then the records. They find this line in different ways; where they agree
on it, the points that the second one returns are those of the records of the first one.
-/

namespace Pcd

open Text
open Binary32 (Word toBytes words number)

/-- What the two programs can raise. -/
inductive PcdError where
  | valueError (message : String)
  | unexpectedFields (fields : Option (List String))
  | invalidLiteral (text : String)
  | notInList (name : String)
  | reshape
  | unicodeDecodeError
  | keyError (key : String)
  | indexError
  | arithmetic (err : PyError)
  deriving DecidableEq

/-! ### Records -/

/-- A row of the cloud, whose columns are these fields. -/
structure Record where
  xyz : Fin 3 → Word
  intensity : Word
  normal : Fin 3 → Word
  curvature : Word
  deriving DecidableEq

/-- The columns of a row. -/
def Record.row (r : Record) : List Word :=
  [r.xyz 0, r.xyz 1, r.xyz 2, r.intensity, r.normal 0, r.normal 1, r.normal 2, r.curvature]

/-- `reshape(points, 8)` -/
def records : List Word → List Record
  | x :: y :: z :: intensity :: nx :: ny :: nz :: curvature :: ws =>
    ⟨![x, y, z], intensity, ![nx, ny, nz], curvature⟩ :: records ws
  | _ => []

/-- `cloud.tobytes(order="C")` -/
def tobytes (cloud : List Record) : List UInt8 := (cloud.flatMap Record.row).flatMap toBytes

lemma records_flatMap_row (cloud : List Record) : records (cloud.flatMap Record.row) = cloud := by
  induction cloud with
  | nil => rfl
  | cons r cloud ih =>
    have hxyz : ![r.xyz 0, r.xyz 1, r.xyz 2] = r.xyz := by
      funext i
      fin_cases i <;> rfl
    have hnormal : ![r.normal 0, r.normal 1, r.normal 2] = r.normal := by
      funext i
      fin_cases i <;> rfl
    rw [List.flatMap_cons]
    simp only [Record.row, List.cons_append, List.nil_append, records, hxyz, hnormal, ih]

@[simp] lemma length_flatMap_row (cloud : List Record) :
    (cloud.flatMap Record.row).length = 8 * cloud.length := by
  induction cloud with
  | nil => rfl
  | cons r cloud ih =>
    rw [List.flatMap_cons, List.length_append, ih, List.length_cons, mul_add, add_comm]
    rfl

/-- Words for whole rows are those of the records. -/
lemma flatMap_row_records {ws : List Word} {n : ℕ} (h : ws.length = 8 * n) :
    (records ws).flatMap Record.row = ws := by
  induction n generalizing ws with
  | zero =>
    obtain rfl := List.length_eq_zero_iff.mp h
    rfl
  | succ n ih =>
    rcases ws with _ | ⟨x, _ | ⟨y, _ | ⟨z, _ | ⟨intensity, _ | ⟨nx, _ | ⟨ny, _ | ⟨nz, _ |
      ⟨curvature, ws⟩⟩⟩⟩⟩⟩⟩⟩
    -- all but the last are too short
    all_goals simp only [List.length_cons, List.length_nil] at h
    all_goals first | omega | skip
    rw [records, List.flatMap_cons, ih (by omega)]
    rfl

lemma tobytes_eq_nil_iff {cloud : List Record} : tobytes cloud = [] ↔ cloud = [] := by
  cases cloud with
  | nil => exact iff_of_true rfl rfl
  | cons r cloud => exact iff_of_false (List.cons_ne_nil _ _) (List.cons_ne_nil _ _)

/-- `np.frombuffer(payload, dtype="<f4")` -/
def frombuffer (payload : List UInt8) : Except PcdError (List Word) :=
  match words payload with
  | some ws => .ok ws
  | none => .error (.valueError "buffer size must be a multiple of element size")

/-! ### The header -/

/-- The dictionary of the header, with the newest entry first. -/
abbrev Values := List (String × List String)

/-- `line.decode("ascii").strip().split()` -/
def parts (line : List UInt8) : Except PcdError (List String) :=
  match wordsOfLine line with
  | some ws => .ok ws
  | none => .error .unicodeDecodeError

lemma parts_eq_ok_iff {line : List UInt8} {ws : List String} :
    parts line = .ok ws ↔ wordsOfLine line = some ws := by
  rw [parts]
  cases wordsOfLine line with
  | none => simp
  | some ws' => simp

/-- The dictionary after a line. -/
def Values.insert (values : Values) : List String → Values
  | [] => values
  | key :: rest => (key, rest) :: values

/-- `values[key]` -/
def Values.get (values : Values) (key : String) : Except PcdError (List String) :=
  match values.lookup key with
  | some value => .ok value
  | none => .error (.keyError key)

/-- `int(values["POINTS"][0])` -/
def Values.points (values : Values) : Except PcdError ℤ := do
  match ← values.get "POINTS" with
  | [] => .error .indexError
  | text :: _ => match int text with
    | some n => .ok n
    | none => .error (.invalidLiteral text)

/-! ### `read_binary_pcd` -/

/-- `EXPECTED_FIELDS` -/
def expectedFields : List String :=
  ["x", "y", "z", "intensity", "normal_x", "normal_y", "normal_z", "curvature"]

/-- The loop over the lines, which returns the header and the payload. -/
def readHeader : List (List UInt8) → Except PcdError (List (List UInt8) × List UInt8)
  | [] => .error (.valueError "PCD header ended before DATA")
  | line :: rest =>
    if (ascii "DATA ").isPrefixOf line then
      if strip isSpaceByte line ≠ ascii "DATA binary" then
        .error (.valueError "only DATA binary PCD files are supported")
      else .ok ([line], rest.flatten)
    else do
      let (header, payload) ← readHeader rest
      return (line :: header, payload)

/-- The loop over the header. -/
def headerValues (header : List (List UInt8)) : Except PcdError Values :=
  header.foldlM (fun values line => do return values.insert (← parts line)) []

/-- The checks of the dictionary. -/
def checkedPoints (values : Values) : Except PcdError ℤ :=
  if values.lookup "FIELDS" ≠ some expectedFields then
    .error (.unexpectedFields (values.lookup "FIELDS"))
  else if values.lookup "SIZE" ≠ some (List.replicate 8 "4") ∨
      values.lookup "TYPE" ≠ some (List.replicate 8 "F") then
    .error (.valueError "expected eight float32 fields")
  else values.points

/-- The cloud of the payload. -/
def readCloud (points : ℤ) (payload : List UInt8) : Except PcdError (List Record) := do
  let cloud ← frombuffer payload
  if cloud.length ≠ points * 8 then .error (.valueError "payload size does not match POINTS")
  else return records cloud

/-- `read_binary_pcd` -/
def readBinaryPcd (stream : List UInt8) : Except PcdError (List (List UInt8) × List Record) := do
  let (header, payload) ← readHeader (lines stream)
  let points ← checkedPoints (← headerValues header)
  return (header, ← readCloud points payload)

/-- The lines up to the first one that starts with `DATA `, of a binary file. -/
def IsHeader (header : List (List UInt8)) : Prop :=
  ∃ init line, header = init ++ [line] ∧ (∀ l ∈ init, ¬(ascii "DATA ").isPrefixOf l = true) ∧
    (ascii "DATA ").isPrefixOf line = true ∧ strip isSpaceByte line = ascii "DATA binary"

section

variable {line : List UInt8} {header ls rest : List (List UInt8)}

/-- A list of lines that begins with a `DATA` line has this one line as its header. -/
lemma isHeader_append_of_data (hdata : (ascii "DATA ").isPrefixOf line = true) :
    IsHeader header ∧ line :: ls = header ++ rest ↔
      strip isSpaceByte line = ascii "DATA binary" ∧ header = [line] ∧ rest = ls := by
  constructor
  · rintro ⟨⟨init, last, rfl, hinit, hlast, hstrip⟩, hls⟩
    cases init with
    | nil =>
      obtain ⟨rfl, rfl⟩ := List.cons.inj hls
      exact ⟨hstrip, rfl, rfl⟩
    | cons l init =>
      obtain ⟨rfl, -⟩ := List.cons.inj hls
      exact absurd hdata (hinit _ List.mem_cons_self)
  · rintro ⟨hstrip, rfl, rfl⟩
    exact ⟨⟨[], line, rfl, by simp, hdata, hstrip⟩, rfl⟩

/-- Another line is the first one of the header. -/
lemma isHeader_append_of_not_data (hdata : ¬(ascii "DATA ").isPrefixOf line = true) :
    IsHeader header ∧ line :: ls = header ++ rest ↔
      ∃ header', IsHeader header' ∧ ls = header' ++ rest ∧ header = line :: header' := by
  constructor
  · rintro ⟨⟨init, last, rfl, hinit, hlast, hstrip⟩, hls⟩
    cases init with
    | nil =>
      obtain ⟨rfl, -⟩ := List.cons.inj hls
      exact absurd hlast hdata
    | cons l init =>
      obtain ⟨rfl, rfl⟩ := List.cons.inj hls
      refine ⟨init ++ [last], ⟨init, last, rfl, fun l hl => ?_, hlast, hstrip⟩, rfl, rfl⟩
      exact hinit l (List.mem_cons_of_mem _ hl)
  · rintro ⟨_, ⟨init, last, rfl, hinit, hlast, hstrip⟩, rfl, rfl⟩
    refine ⟨⟨line :: init, last, rfl, ?_, hlast, hstrip⟩, rfl⟩
    exact List.forall_mem_cons.mpr ⟨hdata, hinit⟩

/-- The loop stops after the header, and the payload is the rest of the stream. -/
lemma readHeader_eq_ok_iff {payload : List UInt8} :
    readHeader ls = .ok (header, payload) ↔
      ∃ rest, (IsHeader header ∧ ls = header ++ rest) ∧ payload = rest.flatten := by
  induction ls generalizing header payload with
  | nil =>
    refine iff_of_false (by simp [readHeader]) ?_
    rintro ⟨rest, ⟨⟨init, last, rfl, -⟩, h⟩, -⟩
    simp at h
  | cons line ls ih =>
    rw [readHeader]
    by_cases hdata : (ascii "DATA ").isPrefixOf line = true
    · simp only [isHeader_append_of_data hdata, if_pos hdata]
      by_cases hstrip : strip isSpaceByte line = ascii "DATA binary"
      · rw [if_neg (not_not.mpr hstrip)]
        constructor
        · rintro ⟨⟩
          exact ⟨ls, ⟨hstrip, rfl, rfl⟩, rfl⟩
        · rintro ⟨rest, ⟨-, rfl, rfl⟩, rfl⟩
          rfl
      · rw [if_pos hstrip]
        refine iff_of_false (by simp) ?_
        rintro ⟨rest, ⟨h, -⟩, -⟩
        exact hstrip h
    · simp only [isHeader_append_of_not_data hdata, if_neg hdata, Except.bind_eq_ok, Prod.exists,
        ih]
      constructor
      · rintro ⟨header', payload', ⟨rest, ⟨hheader, rfl⟩, rfl⟩, heq⟩
        obtain ⟨rfl, rfl⟩ := Prod.mk.inj (Except.ok.inj heq)
        exact ⟨rest, ⟨header', hheader, rfl, rfl⟩, rfl⟩
      · rintro ⟨rest, ⟨header', hheader, rfl, rfl⟩, rfl⟩
        exact ⟨header', rest.flatten, ⟨rest, ⟨hheader, rfl⟩, rfl⟩, rfl⟩

end

lemma frombuffer_eq_ok_iff {payload : List UInt8} {ws : List Word} :
    frombuffer payload = .ok ws ↔ ws.flatMap toBytes = payload := by
  rw [frombuffer]
  constructor
  · intro h
    split at h
    · obtain rfl := Except.ok.inj h
      exact Binary32.flatMap_toBytes_of_words ‹_›
    · simp at h
  · rintro rfl
    rw [Binary32.words_flatMap_toBytes]

/-- A cloud is read from its own bytes and from nothing else. -/
lemma readCloud_eq_ok_iff {points : ℤ} {payload : List UInt8} {cloud : List Record} :
    readCloud points payload = .ok cloud ↔ payload = tobytes cloud ∧ points = cloud.length := by
  rw [readCloud]
  simp only [Except.bind_eq_ok, frombuffer_eq_ok_iff]
  constructor
  · rintro ⟨ws, rfl, h⟩
    split_ifs at h with hlength
    obtain rfl := Except.ok.inj h
    have hn : ws.length = 8 * points.toNat := by omega
    have hrow := flatMap_row_records hn
    have hcount : 8 * (records ws).length = 8 * points.toNat := by
      rw [← length_flatMap_row, hrow, hn]
    refine ⟨?_, by omega⟩
    rw [tobytes, hrow]
  · rintro ⟨rfl, rfl⟩
    refine ⟨cloud.flatMap Record.row, rfl, ?_⟩
    rw [length_flatMap_row, if_neg (by push_cast; omega), records_flatMap_row]
    rfl

/-- The header that `read_binary_pcd` accepts in front of so many records. -/
structure Heads (header : List (List UInt8)) (n : ℕ) : Prop where
  isHeader : IsHeader header
  points : ∃ values, headerValues header = .ok values ∧ checkedPoints values = .ok (n : ℤ)

/-- A file is accepted if it is a header and the bytes of the records. -/
lemma readBinaryPcd_eq_ok_iff {stream : List UInt8} {header : List (List UInt8)}
    {cloud : List Record} : readBinaryPcd stream = .ok (header, cloud) ↔
      Heads header cloud.length ∧ ∃ rest, lines stream = header ++ rest ∧
        rest.flatten = tobytes cloud := by
  rw [readBinaryPcd]
  simp only [Except.bind_eq_ok, Prod.exists, readHeader_eq_ok_iff]
  constructor
  · rintro ⟨header', payload, ⟨rest, ⟨hheader, hlines⟩, rfl⟩, values, hvalues, points, hpoints,
      cloud', hcloud, h⟩
    obtain ⟨rfl, rfl⟩ := Prod.mk.inj (Except.ok.inj h)
    obtain ⟨hbytes, rfl⟩ := readCloud_eq_ok_iff.mp hcloud
    exact ⟨⟨hheader, values, hvalues, hpoints⟩, rest, hlines, hbytes⟩
  · rintro ⟨⟨hheader, values, hvalues, hpoints⟩, rest, hlines, hbytes⟩
    exact ⟨header, rest.flatten, ⟨rest, ⟨hheader, hlines⟩, rfl⟩, values, hvalues, _, hpoints,
      cloud, readCloud_eq_ok_iff.mpr ⟨hbytes, rfl⟩, rfl⟩

/-- The records of an accepted file can be replaced by as many others. -/
lemma readBinaryPcd_replace {stream : List UInt8} {header : List (List UInt8)}
    {cloud cloud' : List Record} (h : readBinaryPcd stream = .ok (header, cloud))
    (hlength : cloud'.length = cloud.length) :
    readBinaryPcd (header.flatten ++ tobytes cloud') = .ok (header, cloud') := by
  obtain ⟨hheads, rest, hlines, hbytes⟩ := readBinaryPcd_eq_ok_iff.mp h
  refine readBinaryPcd_eq_ok_iff.mpr ⟨hlength ▸ hheads, lines (tobytes cloud'), ?_, flatten_lines _⟩
  refine lines_append hlines ?_
  rintro rfl
  have hnil := tobytes_eq_nil_iff.mp hbytes.symm
  rw [hnil, List.length_nil, List.length_eq_zero_iff] at hlength
  rw [hlength]
  rfl

/-! ### `load_xyz` -/

/-- The loop over the lines, which returns the dictionary and the payload. -/
def loadHeader (header : Values) : List (List UInt8) → Except PcdError (Values × List UInt8)
  | [] => .error (.valueError "invalid PCD header")
  | line :: rest => do
    let parts ← parts line
    if parts.take 1 = ["DATA"] then
      if parts.drop 1 ≠ ["binary"] then .error (.valueError "only binary PCD is supported")
      else return (header.insert parts, rest.flatten)
    else loadHeader (header.insert parts) rest

/-- Rows of `k` elements. -/
def rows {α : Type} (k : ℕ) : ℕ → List α → List (List α)
  | 0, _ => []
  | n + 1, xs => xs.take k :: rows k n (xs.drop k)

/-- `reshape(points, k)`, where a negative number of points stands for the one that fits. -/
def reshape {α : Type} (points : ℤ) (k : ℕ) (xs : List α) : Except PcdError (List (List α)) :=
  if points < -2 ^ 63 ∨ 2 ^ 63 ≤ points then .error (.arithmetic .overflowError)
  else if points < 0 then
    if k = 0 ∨ xs.length % k ≠ 0 then .error .reshape else .ok (rows k (xs.length / k) xs)
  else if xs.length ≠ points * k then .error .reshape
  else .ok (rows k points.toNat xs)

/-- `fields.index(name)` -/
def index (fields : List String) (name : String) : Except PcdError ℕ :=
  match fields.idxOf? name with
  | some i => .ok i
  | none => .error (.notInList name)

section

variable {K : Type} [Field K]

/-- A point with finite coordinates. -/
def finitePoint (x y z : Word) : Option (Ros.Vector3 K) :=
  if Binary32.isFinite x && Binary32.isFinite y && Binary32.isFinite z then
    some ⟨number x, number y, number z⟩
  else none

/-- `load_xyz` -/
def loadXyz (stream : List UInt8) : Except PcdError (List (Ros.Vector3 K)) := do
  let (header, payload) ← loadHeader [] (lines stream)
  let fields ← header.get "FIELDS"
  if (← header.get "SIZE") ≠ List.replicate fields.length "4" then
    .error (.valueError "expected float32 PCD fields")
  else if (← header.get "TYPE") ≠ List.replicate fields.length "F" then
    .error (.valueError "expected float32 PCD fields")
  else
    let points ← header.points
    let cloud ← reshape points fields.length (← frombuffer payload)
    let ix ← index fields "x"
    let iy ← index fields "y"
    let iz ← index fields "z"
    return cloud.filterMap fun row => finitePoint (row.getD ix 0) (row.getD iy 0) (row.getD iz 0)

end

/-! ### Both programs -/

/-- Without its space the last line of the header is `DATA binary` for both programs. -/
lemma parts_of_strip {line : List UInt8} (h : strip isSpaceByte line = ascii "DATA binary") :
    parts line = .ok ["DATA", "binary"] := by
  obtain ⟨w₁, w₂, hline, h₁, h₂⟩ := exists_of_strip isSpaceByte line
  have hdecode : decodeAscii (ascii "DATA binary") = some "DATA binary".toList := by decide
  rw [parts_eq_ok_iff, hline, h,
    wordsOfLine_append h₁ h₂ hdecode (by decide) (by decide) (by decide)]
  decide

/-- No line of the header but the last one has `DATA` as its first word. -/
abbrev Plain (header : List (List UInt8)) : Prop :=
  ∀ line ∈ header.dropLast, (wordsOfLine line).bind List.head? ≠ some "DATA"

lemma take_ne_of_head {line : List UInt8} {ws : List String}
    (h : (wordsOfLine line).bind List.head? ≠ some "DATA") (hws : parts line = .ok ws) :
    ws.take 1 ≠ ["DATA"] := by
  rw [parts_eq_ok_iff.mp hws, Option.bind_some] at h
  cases ws with
  | nil => simp
  | cons w ws =>
    rintro htake
    exact h (congrArg List.head? htake)

/-- On a plain header the loop of `load_xyz` ends where that of `read_binary_pcd` does. -/
lemma loadHeader_append {init rest : List (List UInt8)} {line : List UInt8} {v values : Values}
    (hvalues : (init ++ [line]).foldlM (fun values line => do
      return values.insert (← parts line)) v = .ok values)
    (hplain : ∀ l ∈ init, (wordsOfLine l).bind List.head? ≠ some "DATA")
    (hstrip : strip isSpaceByte line = ascii "DATA binary") :
    loadHeader v (init ++ [line] ++ rest) = .ok (values, rest.flatten) := by
  induction init generalizing v with
  | nil =>
    rw [List.nil_append, List.foldlM_cons, parts_of_strip hstrip] at hvalues
    obtain rfl := Except.ok.inj hvalues
    rw [List.nil_append, List.singleton_append, loadHeader, parts_of_strip hstrip]
    rfl
  | cons l init ih =>
    rw [List.cons_append, List.foldlM_cons, Except.bind_eq_ok] at hvalues
    obtain ⟨v', hv', hvalues⟩ := hvalues
    obtain ⟨ws, hws, hv'⟩ := Except.bind_eq_ok.mp hv'
    obtain rfl := Except.ok.inj hv'
    have hdata := take_ne_of_head (hplain l List.mem_cons_self) hws
    rw [List.cons_append, List.cons_append, loadHeader, hws]
    simp only [bind, Except.bind, if_neg hdata]
    exact ih hvalues fun l hl => hplain l (List.mem_cons_of_mem _ hl)

lemma rows_flatMap_row (cloud : List Record) :
    rows 8 cloud.length (cloud.flatMap Record.row) = cloud.map Record.row := by
  induction cloud with
  | nil => rfl
  | cons r cloud ih =>
    rw [List.length_cons, rows, List.flatMap_cons, List.map_cons]
    exact congrArg (r.row :: ·) ih

lemma reshape_flatMap_row {cloud : List Record} (h : cloud.length < 2 ^ 63) :
    reshape cloud.length 8 (cloud.flatMap Record.row) = .ok (cloud.map Record.row) := by
  have hlength : ¬((cloud.flatMap Record.row).length : ℤ) ≠ (cloud.length : ℤ) * (8 : ℕ) := by
    rw [length_flatMap_row]
    push_cast
    omega
  rw [reshape, if_neg (by omega), if_neg (by omega), if_neg hlength, Int.toNat_natCast,
    rows_flatMap_row]

section

variable {K : Type} [Field K]

/-- The finite points of a cloud. -/
def finitePoints (cloud : List Record) : List (Ros.Vector3 K) :=
  cloud.filterMap fun r => finitePoint (r.xyz 0) (r.xyz 1) (r.xyz 2)

lemma checkedPoints_eq_ok {values : Values} {points : ℤ} (h : checkedPoints values = .ok points) :
    values.get "FIELDS" = .ok expectedFields ∧ values.get "SIZE" = .ok (List.replicate 8 "4") ∧
      values.get "TYPE" = .ok (List.replicate 8 "F") ∧ values.points = .ok points := by
  rw [checkedPoints] at h
  split_ifs at h with hfields htypes
  rw [not_not] at hfields
  rw [not_or, not_not, not_not] at htypes
  simp only [Values.get, hfields, htypes.1, htypes.2, h, and_self]

/-- What `load_xyz` makes of an accepted file with a plain header. -/
lemma loadXyz_of_read {stream : List UInt8} {header : List (List UInt8)} {cloud : List Record}
    (h : readBinaryPcd stream = .ok (header, cloud)) (hplain : Plain header) :
    loadXyz (K := K) stream = if cloud.length < 2 ^ 63 then .ok (finitePoints cloud)
      else .error (.arithmetic .overflowError) := by
  obtain ⟨⟨⟨init, line, rfl, -, -, hstrip⟩, values, hvalues, hpoints⟩, rest, hlines, hbytes⟩ :=
    readBinaryPcd_eq_ok_iff.mp h
  rw [Plain, List.dropLast_concat] at hplain
  have hheader : loadHeader [] (init ++ [line] ++ rest) = .ok (values, rest.flatten) :=
    loadHeader_append hvalues hplain hstrip
  obtain ⟨hfields, hsize, htype, hn⟩ := checkedPoints_eq_ok hpoints
  have hwords : frombuffer rest.flatten = .ok (cloud.flatMap Record.row) :=
    frombuffer_eq_ok_iff.mpr hbytes.symm
  have hlength : expectedFields.length = 8 := rfl
  rw [loadXyz, hlines, hheader]
  simp only [bind, Except.bind, hfields, hsize, htype, hn, hwords, hlength, ne_eq,
    not_true_eq_false, if_false]
  split_ifs with hlt
  · rw [reshape_flatMap_row hlt]
    have hcloud : ((cloud.map Record.row).filterMap fun row =>
        finitePoint (K := K) (row.getD 0 0) (row.getD 1 0) (row.getD 2 0)) = finitePoints cloud :=
      List.filterMap_map
    exact congrArg Except.ok hcloud
  · rw [reshape, if_pos (by omega)]

end

end Pcd
