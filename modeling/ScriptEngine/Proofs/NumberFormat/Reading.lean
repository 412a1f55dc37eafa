import ScriptEngine.NumberFormat.Basic
import ScriptEngine.Proofs.Decimal.Digits

/-!
# Formats as they are read

A letter with at most two digits is the format of a kind with a precision (`parse_of_lettered`), which is the
number that the digits denote (`parse_digits`, `parse_standard`). `parse_pattern` reads any text that does
not start with a letter. In a pattern most characters stand for one piece each (`Pattern.Reads`), so a text
of such characters is one section (`Pattern.Reads.parse`), to which an exponent may be added
(`Pattern.Reads.parse_exponent`).
-/

namespace ScriptEngine.NumberFormat

namespace Pattern

/-- The piece that a character stands for outside of literals and exponents, if it stands for one by
itself. -/
def pieceOf? : Char → Option Piece
  | '0' => some (.place true)
  | '#' => some (.place false)
  | '.' => some .point
  | ',' => some .comma
  | '%' => some .percent
  | '‰' => some .perMille
  | '\'' | '"' | '\\' | 'E' | 'e' | ';' => none
  | c => some (.literal [c])

/-- Every character of a text stands for a piece. -/
def Reads (text : List Char) (pieces : Section) : Prop :=
  text.map pieceOf? = pieces.map some

variable {text text' : List Char} {pieces pieces' : Section}

theorem Reads.append (h : Reads text pieces) (h' : Reads text' pieces') :
    Reads (text ++ text') (pieces ++ pieces') := by
  rw [Reads, List.map_append, List.map_append, h, h']

theorem Scanner.read_piece {s : Scanner} {c : Char} {piece : Piece} (hs : s.mode = .plain)
    (h : pieceOf? c = some piece) : s.read c = .ok (s.push piece) := by
  simp only [read, hs, readPlain]
  split <;> simp_all [pieceOf?]

/-- Reading characters that stand for a piece each adds these pieces to the section. -/
theorem Reads.foldlM (h : Reads text pieces) {s : Scanner} (hs : s.mode = .plain) :
    text.foldlM Scanner.read s = .ok { s with pieces := s.pieces ++ pieces } := by
  induction text generalizing s pieces with
  | nil =>
    rw [List.map_eq_nil_iff.mp (Eq.symm h), List.append_nil]
    rfl
  | cons c text ih =>
    obtain ⟨piece, rest, rfl, hp, hr⟩ := List.map_eq_cons_iff.mp (Eq.symm h)
    have hlater : Reads text rest := hr.symm
    rw [List.foldlM_cons, Scanner.read_piece hs hp.symm]
    refine (ih hlater rfl).trans ?_
    simp [Scanner.push, hs]

theorem Reads.parse (h : Reads text pieces) : Pattern.parse text = .ok [pieces] := by
  rw [Pattern.parse, h.foldlM rfl]
  rfl

/-- A mark, a sign and three zeros behind such a text are an exponent. -/
theorem Reads.parse_exponent (h : Reads text pieces) :
    Pattern.parse (text ++ ['E', '+', '0', '0', '0']) =
      .ok [pieces ++ [.exponent 'E' .plus 3]] := by
  rw [Pattern.parse, List.foldlM_append, h.foldlM rfl]
  rfl

end Pattern

/-! ## Texts of formats -/

variable {format : String} {first letter : Char} {rest digits text : List Char}

theorem isEmpty_of_toList (h : format.toList = first :: rest) : format.isEmpty = false := by
  rw [String.isEmpty_eq_false_iff]
  rintro rfl
  cases h

/-- A letter of ASCII and at most two digits of any script. -/
structure IsLettered (letter : Char) (digits : List Char) : Prop where
  isLetter : letter.isAlpha = true
  atMostTwo : digits.length ≤ 2
  areDigits : ∀ c ∈ digits, Text.isDecimalDigit c = true

theorem standardShape?_eq_some_iff :
    standardShape? text = some (letter, digits) ↔ text = letter :: digits ∧ IsLettered letter digits := by
  cases text with
  | nil => simp [standardShape?]
  | cons first rest =>
    simp only [standardShape?]
    split
    · rename_i hshape
      simp only [Bool.and_eq_true, decide_eq_true_eq, List.all_eq_true] at hshape
      simp only [Option.some.injEq, Prod.mk.injEq, List.cons.injEq]
      refine ⟨?_, And.left⟩
      rintro ⟨rfl, rfl⟩
      exact ⟨⟨rfl, rfl⟩, hshape.1.1, hshape.1.2, hshape.2⟩
    · rename_i hshape
      refine iff_of_false (by rintro ⟨⟩) ?_
      rintro ⟨⟨rfl, rfl⟩, hl⟩
      refine hshape ?_
      simp only [Bool.and_eq_true, decide_eq_true_eq, List.all_eq_true]
      exact ⟨⟨hl.isLetter, hl.atMostTwo⟩, hl.areDigits⟩

theorem parse_of_lettered {kind : Standard} (hf : format.toList = letter :: digits)
    (hl : IsLettered letter digits) (hk : Standard.ofLetter? letter = some kind) :
    parse format = .ok (.standard kind letter.isLower (precisionOf digits)) := by
  have hshape : standardShape? format.toList = some (letter, digits) :=
    standardShape?_eq_some_iff.mpr ⟨hf, hl⟩
  simp only [parse, isEmpty_of_toList hf, hshape, hk, Bool.false_eq_true, if_false]

theorem isDecimalDigit_toChar : ∀ d : Digit, Text.isDecimalDigit d.toChar = true := by
  decide +kernel

theorem precisionOf_map (digits : List Digit) :
    precisionOf (digits.map Digit.toChar) =
      if digits = [] then none else some (Digit.value digits) := by
  have hdigits : (digits.map Digit.toChar).all Char.isDigit = true := by
    rw [List.all_map, List.all_eq_true]
    exact fun d _ => Digit.isDigit_toChar d
  have hvalue : (digits.map Digit.toChar).foldl (fun n c => 10 * n + (c.toNat - '0'.toNat)) 0 =
      Digit.value digits := by
    rw [List.foldl_map, Digit.value]
    exact congrArg (fun f => digits.foldl f 0) (funext₂ fun n d => by rw [Digit.toNat_toChar d])
  rw [precisionOf, hdigits, hvalue]
  cases digits <;> rfl

/-- A letter with at most two digits is a standard format, and the digits are its precision. -/
theorem parse_digits {kind : Standard} {precision : List Digit} (ha : letter.isAlpha = true)
    (hk : Standard.ofLetter? letter = some kind) (hd : precision.length ≤ 2)
    (hf : format.toList = letter :: precision.map Digit.toChar) :
    parse format = .ok (.standard kind letter.isLower
      (if precision = [] then none else some (Digit.value precision))) := by
  have hlettered : IsLettered letter (precision.map Digit.toChar) := by
    refine ⟨ha, (List.length_map _).trans_le hd, fun c hc => ?_⟩
    obtain ⟨d, -, rfl⟩ := List.mem_map.mp hc
    exact isDecimalDigit_toChar d
  rw [parse_of_lettered hf hlettered hk, precisionOf_map]

theorem parse_standard (letter : Char) {kind : Standard} {p : Nat} (hp : p < 100)
    (hf : format.toList = letter :: (toString p).toList) (ha : letter.isAlpha = true)
    (hk : Standard.ofLetter? letter = some kind) :
    parse format = .ok (.standard kind letter.isLower (some p)) := by
  obtain ⟨precision, hdigits, hne, hvalue⟩ := Digit.exists_toString p
  have hlength : precision.length ≤ 2 := by
    rw [← List.length_map Digit.toChar, ← hdigits, Digit.length_toString_le_iff Nat.two_pos]
    exact hp
  rw [parse_digits ha hk hlength (hdigits ▸ hf), if_neg hne, hvalue]

theorem parse_pattern {sections : List Section} (hf : format.toList = first :: rest)
    (ha : first.isAlpha = false) (hp : Pattern.parse (first :: rest) = .ok sections) :
    parse format = .ok (.custom sections) := by
  have hs : standardShape? (first :: rest) = none := by
    simp only [standardShape?, ha, Bool.false_and, Bool.false_eq_true, if_false]
  simp only [parse, isEmpty_of_toList hf, hf, hs, hp, Bool.false_eq_true, if_false]

end ScriptEngine.NumberFormat
