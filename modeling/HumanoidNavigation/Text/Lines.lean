import Mathlib.Data.Int.Notation
import Mathlib.Data.List.TakeWhile

/-!
# Lines and words

What Python does to text: `readline` on a stream of bytes, and `strip`, `split`, `decode("ascii")`
and `int` on what it returns.
-/

namespace Text

/-! ### Lines -/

def newline : UInt8 := 10

/-- What `readline` returns until the end of the stream. -/
def lines : List UInt8 → List (List UInt8)
  | [] => []
  | b :: bytes =>
    if b = newline then [b] :: lines bytes
    else match lines bytes with
      | [] => [[b]]
      | line :: rest => (b :: line) :: rest

lemma lines_eq_nil_iff {bytes : List UInt8} : lines bytes = [] ↔ bytes = [] := by
  cases bytes with
  | nil => exact iff_of_true rfl rfl
  | cons b bytes =>
    refine iff_of_false ?_ (List.cons_ne_nil _ _)
    rw [lines]
    split
    · exact List.cons_ne_nil _ _
    · split
      · exact List.cons_ne_nil _ _
      · exact List.cons_ne_nil _ _

lemma flatten_lines (bytes : List UInt8) : (lines bytes).flatten = bytes := by
  induction bytes with
  | nil => rfl
  | cons b bytes ih =>
    rw [lines]
    split_ifs
    · rw [List.flatten_cons, ih, List.singleton_append]
    · split <;> rename_i h
      · rw [lines_eq_nil_iff.mp h]
        rfl
      · rw [h, List.flatten_cons] at ih
        rw [List.flatten_cons, List.cons_append, ih]

/-- The first line stays the first line in front of other bytes, unless it was not ended. -/
lemma lines_eq_cons {bytes line : List UInt8} {rest : List (List UInt8)}
    (h : lines bytes = line :: rest) : ∃ bytes', bytes = line ++ bytes' ∧ lines bytes' = rest ∧
      ∀ p, (bytes' = [] → p = []) → lines (line ++ p) = line :: lines p := by
  induction bytes generalizing line rest with
  | nil => cases h
  | cons b bytes ih =>
    rw [lines] at h
    split_ifs at h with hb
    · obtain ⟨rfl, rfl⟩ := List.cons.inj h
      exact ⟨bytes, rfl, rfl, fun p _ => if_pos hb⟩
    · split at h <;> rename_i hlines
      · obtain ⟨rfl, rfl⟩ := List.cons.inj h
        obtain rfl := lines_eq_nil_iff.mp hlines
        refine ⟨[], rfl, rfl, fun p hp => ?_⟩
        rw [hp rfl]
        exact if_neg hb
      · obtain ⟨rfl, rfl⟩ := List.cons.inj h
        obtain ⟨bytes', rfl, hrest, hp⟩ := ih hlines
        refine ⟨bytes', rfl, hrest, fun p h => ?_⟩
        rw [List.cons_append, lines, if_neg hb, hp p h]

/-- What follows some lines can be replaced. -/
lemma lines_append {bytes p : List UInt8} {header rest : List (List UInt8)}
    (h : lines bytes = header ++ rest) (hp : rest = [] → p = []) :
    lines (header.flatten ++ p) = header ++ lines p := by
  induction header generalizing bytes with
  | nil => rfl
  | cons line header ih =>
    obtain ⟨bytes', -, hrest, hline⟩ := lines_eq_cons h
    rw [List.flatten_cons, List.append_assoc, hline, ih hrest]
    · rfl
    · intro hnil
      rw [hnil] at hrest
      obtain ⟨rfl, rfl⟩ := List.append_eq_nil_iff.mp hrest.symm
      rw [hp rfl]
      rfl

/-! ### Words -/

section

variable {α : Type} {p : α → Bool} {l d w₁ w₂ : List α}

/-- `strip()`, which takes what is space off both ends. -/
def strip (p : α → Bool) (l : List α) : List α := ((l.dropWhile p).reverse.dropWhile p).reverse

lemma exists_of_strip (p : α → Bool) (l : List α) :
    ∃ w₁ w₂, l = w₁ ++ strip p l ++ w₂ ∧ (∀ x ∈ w₁, p x) ∧ ∀ x ∈ w₂, p x := by
  refine ⟨l.takeWhile p, ((l.dropWhile p).reverse.takeWhile p).reverse, ?_, ?_, ?_⟩
  · rw [strip, List.append_assoc, ← List.reverse_append, List.takeWhile_append_dropWhile,
      List.reverse_reverse, List.takeWhile_append_dropWhile]
  · exact fun x hx => List.mem_takeWhile_imp hx
  · exact fun x hx => List.mem_takeWhile_imp (List.mem_reverse.mp hx)

lemma dropWhile_append (hd : d ≠ []) (hhead : d.dropWhile p = d) (w : List α) :
    (d ++ w).dropWhile p = d ++ w := by
  obtain ⟨x, d, rfl⟩ := List.exists_cons_of_ne_nil hd
  have hx : ¬p x = true := by
    intro hx
    rw [List.dropWhile_cons_of_pos hx] at hhead
    have hlength := congrArg List.length hhead
    have hle := (List.dropWhile_sublist p (l := d)).length_le
    rw [List.length_cons] at hlength
    omega
  rw [List.cons_append, List.dropWhile_cons_of_neg hx]

/-- Space around a text whose ends are not space is taken off. -/
lemma strip_append (hd : d ≠ []) (hhead : d.dropWhile p = d)
    (hlast : d.reverse.dropWhile p = d.reverse) (h₁ : ∀ x ∈ w₁, p x) (h₂ : ∀ x ∈ w₂, p x) :
    strip p (w₁ ++ d ++ w₂) = d := by
  have h₂' : ∀ x ∈ w₂.reverse, p x := fun x hx => h₂ x (List.mem_reverse.mp hx)
  rw [strip, List.append_assoc, List.dropWhile_append_of_pos h₁, dropWhile_append hd hhead,
    List.reverse_append, List.dropWhile_append_of_pos h₂', hlast, List.reverse_reverse]

/-- The words after the letters `word`, which are in reverse. -/
def splitAfter (p : α → Bool) (word : List α) : List α → List (List α)
  | [] => if word.isEmpty then [] else [word.reverse]
  | c :: cs =>
    if p c then
      if word.isEmpty then splitAfter p [] cs else word.reverse :: splitAfter p [] cs
    else splitAfter p (c :: word) cs

/-- `split()` -/
def split (p : α → Bool) (l : List α) : List (List α) := splitAfter p [] l

end

/-! ### Characters -/

/-- `bytes.isspace` -/
def isSpaceByte (b : UInt8) : Bool := b.toNat ∈ [9, 10, 11, 12, 13, 32]

/-- `str.isspace`, on ASCII characters -/
def isSpace (c : Char) : Bool := c.toNat ∈ [9, 10, 11, 12, 13, 28, 29, 30, 31, 32]

/-- `decode("ascii")` -/
def decodeAscii (bytes : List UInt8) : Option (List Char) :=
  if bytes.all (·.toNat < 128) then some (bytes.map fun b => Char.ofNat b.toNat) else none

/-- A literal of bytes. -/
def ascii (s : String) : List UInt8 := s.toList.map fun c => UInt8.ofNat c.toNat

/-- The words of a line, unless it is not ASCII. -/
def wordsOfLine (line : List UInt8) : Option (List String) := do
  return (split isSpace (strip isSpace (← decodeAscii line))).map String.ofList

lemma isSpace_of_isSpaceByte {b : UInt8} (h : isSpaceByte b) :
    b.toNat < 128 ∧ isSpace (Char.ofNat b.toNat) = true := by
  simp only [isSpaceByte, List.mem_cons, List.not_mem_nil, or_false, decide_eq_true_eq] at h
  rcases h with h | h | h | h | h | h
  all_goals rw [h]; decide

/-- Bytes that are space may be around a line. -/
lemma wordsOfLine_append {d w₁ w₂ : List UInt8} (h₁ : ∀ x ∈ w₁, isSpaceByte x)
    (h₂ : ∀ x ∈ w₂, isSpaceByte x) {cs : List Char} (hd : decodeAscii d = some cs) (hcs : cs ≠ [])
    (hhead : cs.dropWhile isSpace = cs) (hlast : cs.reverse.dropWhile isSpace = cs.reverse) :
    wordsOfLine (w₁ ++ d ++ w₂) = some ((split isSpace cs).map String.ofList) := by
  have hspace {w : List UInt8} (hw : ∀ x ∈ w, isSpaceByte x) :
      ∀ c ∈ w.map fun b => Char.ofNat b.toNat, isSpace c := by
    simp only [List.forall_mem_map]
    exact fun b hb => (isSpace_of_isSpaceByte (hw b hb)).2
  rw [decodeAscii] at hd
  split_ifs at hd with hall
  obtain rfl := Option.some.inj hd
  have hascii : (w₁ ++ d ++ w₂).all (·.toNat < 128) = true := by
    simp only [List.all_eq_true, decide_eq_true_eq, List.mem_append] at hall ⊢
    rintro b ((hb | hb) | hb)
    · exact (isSpace_of_isSpaceByte (h₁ b hb)).1
    · exact hall b hb
    · exact (isSpace_of_isSpaceByte (h₂ b hb)).1
  rw [wordsOfLine, decodeAscii, if_pos hascii, List.map_append, List.map_append]
  exact congrArg (fun cs => some ((split isSpace cs).map String.ofList))
    (strip_append hcs hhead hlast (hspace h₁) (hspace h₂))

/-! ### Integers -/

/-- The digits after the number `n`; an underscore may be between two digits. -/
def digitsAfter (n : ℕ) : List Char → Option ℕ
  | [] => some n
  | '_' :: c :: cs => if c.isDigit then digitsAfter (10 * n + (c.toNat - 48)) cs else none
  | c :: cs => if c.isDigit then digitsAfter (10 * n + (c.toNat - 48)) cs else none

def natural : List Char → Option ℕ
  | c :: cs => if c.isDigit then digitsAfter (c.toNat - 48) cs else none
  | [] => none

/-- `int(s)` -/
def int (s : String) : Option ℤ :=
  match s.toList with
  | '+' :: cs => (natural cs).map Int.ofNat
  | '-' :: cs => (natural cs).map fun n => -Int.ofNat n
  | cs => (natural cs).map Int.ofNat

end Text
