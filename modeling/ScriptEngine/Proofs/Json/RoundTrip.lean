import ScriptEngine.Json.Reader
import ScriptEngine.Json.Writer
import ScriptEngine.Proofs.Script.Literal

/-!
# JSON texts are read back

Reading the text of a JSON value gives the value (`Json.parse?_write`), as long as it holds nothing that no
text can stand for and its numbers are written as JSON asks for (`Json.Readable`). Each part of a text is
read back whatever comes behind it: numbers if it cannot be taken for more of the number
(`numeral?_write`), strings always (`stringBody?_text`), and values by induction, with as much fuel as
twice the length of the text (`Readable.readsBack`).
-/

namespace ScriptEngine

namespace Numeral

/-- A number as JSON has it: there are digits before the point, and no zero stands in front of others. -/
structure WellFormed (n : Numeral) : Prop where
  integer_ne : n.integer ≠ []
  leading : ∀ rest, n.integer = 0 :: rest → rest = []

/-- The text of the fraction. -/
def fractionChars (n : Numeral) : List Char :=
  if n.fraction.isEmpty then [] else '.' :: n.fraction.map Digit.toChar

/-- The digits of an exponent. -/
def exponentDigits (e : Int) : List Digit :=
  if e = 0 then [0] else Decimal.digitsOf e.natAbs

/-- The text of the exponent. -/
def exponentChars (n : Numeral) : List Char :=
  match n.exponent with
  | none => []
  | some e => 'e' :: (if e < 0 then '-' else '+') :: (exponentDigits e).map Digit.toChar

theorem write_eq (n : Numeral) :
    n.write = (if n.negative then ['-'] else []) ++ n.integer.map Digit.toChar ++ n.fractionChars ++
      n.exponentChars :=
  rfl

end Numeral

namespace Json

/-- What stands behind a number and cannot be taken for more of it. -/
def EndsNumber (rest : List Char) : Prop :=
  ∀ c ∈ rest.head?, c.isDigit = false ∧ c ≠ '.' ∧ c ≠ 'e' ∧ c ≠ 'E'

variable {n : Numeral} {rest : List Char}

theorem integerPart?_write (h : n.WellFormed) (hr : ∀ c ∈ rest.head?, c.isDigit = false) :
    integerPart? (n.integer.map Digit.toChar ++ rest) = some (n.integer, rest) := by
  obtain ⟨hne, hleading⟩ := h
  generalize n.integer = integer at hne hleading ⊢
  rw [integerPart?, Digit.run_map _ hr]
  split
  · rename_i heq
    exact absurd (congrArg Prod.fst heq) hne
  · rename_i heq
    have hnone := hleading _ (congrArg Prod.fst heq)
    cases hnone
  · rfl

theorem fractionPart?_write (n : Numeral) (hr : ∀ c ∈ rest.head?, c.isDigit = false ∧ c ≠ '.') :
    fractionPart? (n.fractionChars ++ rest) = some (n.fraction, rest) := by
  unfold Numeral.fractionChars
  cases n.fraction with
  | nil =>
    rw [List.isEmpty_nil, if_pos rfl, List.nil_append]
    unfold fractionPart?
    split
    · exact absurd rfl (hr '.' rfl).2
    · rfl
  | cons d ds =>
    rw [List.isEmpty_cons, if_neg Bool.false_ne_true, List.cons_append, fractionPart?,
      Digit.run_map _ fun c hc => (hr c hc).1]

theorem exponentPart?_signed (negative : Bool) {digits : List Digit} (hne : digits ≠ [])
    (hr : ∀ c ∈ rest.head?, c.isDigit = false) :
    exponentPart? ('e' :: (if negative then '-' else '+') :: (digits.map Digit.toChar ++ rest)) =
      some (some (if negative then -(Digit.value digits : Int) else Digit.value digits), rest) := by
  have hrun := Digit.run_map digits hr
  cases digits with
  | nil => exact absurd rfl hne
  | cons d ds =>
    rw [List.map_cons, List.cons_append] at hrun
    cases negative <;> simp [exponentPart?, hrun]

theorem exponentPart?_write (n : Numeral) (hr : EndsNumber rest) :
    exponentPart? (n.exponentChars ++ rest) = some (n.exponent, rest) := by
  unfold Numeral.exponentChars
  cases n.exponent with
  | none =>
    cases rest with
    | nil => rfl
    | cons c rest =>
      obtain ⟨-, -, he, hE⟩ := hr c rfl
      have hmark : ¬ (c = 'e' ∨ c = 'E') := not_or.mpr ⟨he, hE⟩
      exact if_neg hmark
  | some e =>
    have hvalue : Digit.value (Numeral.exponentDigits e) = e.natAbs := by
      unfold Numeral.exponentDigits
      split
      · subst e
        rfl
      · rw [Decimal.value_digitsOf]
    have hne : Numeral.exponentDigits e ≠ [] := by
      unfold Numeral.exponentDigits
      split
      · exact List.cons_ne_nil _ _
      · exact Decimal.digitsOf_ne_nil (by omega)
    have hread := exponentPart?_signed (decide (e < 0)) hne fun c hc => (hr c hc).1
    rw [hvalue] at hread
    simp only [decide_eq_true_eq] at hread
    refine hread.trans ?_
    congr 3
    split <;> omega

/-- What is left of a number behind its fraction starts neither with a digit nor with a point. -/
theorem head?_exponent (n : Numeral) (hr : EndsNumber rest) :
    ∀ c ∈ (n.exponentChars ++ rest).head?, c.isDigit = false ∧ c ≠ '.' := by
  unfold Numeral.exponentChars
  split
  · intro c hc
    exact ⟨(hr c hc).1, (hr c hc).2.1⟩
  · rintro c ⟨⟩
    decide

/-- What is left of a number behind its integer does not start with a digit. -/
theorem head?_fraction (n : Numeral) (hr : EndsNumber rest) :
    ∀ c ∈ (n.fractionChars ++ (n.exponentChars ++ rest)).head?, c.isDigit = false := by
  unfold Numeral.fractionChars
  split
  · intro c hc
    exact (head?_exponent n hr c hc).1
  · rintro c ⟨⟩
    rfl

/-- A number behind its sign. -/
def unsignedNumeral? (negative : Bool) (cs : List Char) : Option (Numeral × List Char) := do
  let (integer, afterInteger) ← integerPart? cs
  let (fraction, afterFraction) ← fractionPart? afterInteger
  let (exponent, left) ← exponentPart? afterFraction
  return (⟨negative, integer, fraction, exponent⟩, left)

theorem numeral?_negative (cs : List Char) : numeral? ('-' :: cs) = unsignedNumeral? true cs :=
  rfl

theorem numeral?_digit {cs : List Char} (h : ∀ c ∈ cs.head?, c.isDigit = true) :
    numeral? cs = unsignedNumeral? false cs := by
  unfold numeral?
  split
  rename_i negative body heq
  split at heq
  · cases h '-' rfl
  · cases heq
    rfl

/-- A number is read back in front of what cannot be taken for more of it. -/
theorem numeral?_write (h : n.WellFormed) (hr : EndsNumber rest) :
    numeral? (n.write ++ rest) = some (n, rest) := by
  have hinteger := integerPart?_write h (head?_fraction n hr)
  have hfraction := fractionPart?_write n (head?_exponent n hr)
  have hexponent := exponentPart?_write n hr
  have hunsigned : ∀ negative, unsignedNumeral? negative
      (n.integer.map Digit.toChar ++ (n.fractionChars ++ (n.exponentChars ++ rest))) =
        some ({ n with negative }, rest) := by
    intro negative
    simp [unsignedNumeral?, hinteger, hfraction, hexponent]
  rw [Numeral.write_eq, List.append_assoc, List.append_assoc, List.append_assoc]
  cases hsign : n.negative with
  | true =>
    rw [if_pos rfl, List.singleton_append, numeral?_negative, hunsigned, ← hsign]
  | false =>
    obtain ⟨d, ds, hd⟩ := List.exists_cons_of_ne_nil h.integer_ne
    rw [if_neg Bool.false_ne_true, List.nil_append, numeral?_digit, hunsigned, ← hsign]
    rw [hd]
    rintro c ⟨⟩
    exact Digit.isDigit_toChar d

/-! ## Strings -/

/-- The code of a control character is read back. -/
theorem hexUnit?_control : ∀ code < 32,
    hexUnit? '0' '0' (hexDigit (code / 16)) (hexDigit (code % 16)) = some code ∧
      isHighSurrogate code = false ∧ isLowSurrogate code = false := by
  decide

/-- A character that was escaped is read back. -/
theorem stringBody?_escape (c : Char) (rest : List Char) :
    stringBody? (escapeChar c ++ rest) = consBody? c (stringBody? rest) := by
  unfold escapeChar
  split
  case h_8 hquote hbackslash _ _ _ _ _ =>
    split
    · rename_i hcontrol
      obtain ⟨hunit, hhigh, hlow⟩ := hexUnit?_control c.toNat hcontrol
      simp only [List.cons_append, List.nil_append]
      rw [stringBody?, hunit]
      simp [hhigh, hlow]
    · rename_i hplain
      simp only [List.cons_append, List.nil_append]
      rw [stringBody?]
      · have hno : ¬ (decide (c.toNat < 0x20) || c == '\\') = true := by
          simpa [hplain] using hbackslash
        exact if_neg hno
      · exact hquote
      · exact fun _ _ _ _ _ hc => absurd hc hbackslash
      · exact fun _ _ hc => absurd hc hbackslash
  all_goals simp [stringBody?, shortEscape?]

theorem stringBody?_text (text rest : List Char) :
    stringBody? (text.flatMap escapeChar ++ '"' :: rest) = some (some text, rest) := by
  induction text with
  | nil => rfl
  | cons c text ih =>
    rw [List.flatMap_cons, List.append_assoc, stringBody?_escape, ih]
    rfl

/-! ## Values -/

/-- Values that a text can stand for: their numbers are well formed, and no string has half of a surrogate
pair in it. -/
inductive Readable : Json → Prop
  | null : Readable .null
  | bool (b : Bool) : Readable (.bool b)
  | number {n : Numeral} (wellFormed : n.WellFormed) : Readable (.number n)
  | string (s : String) : Readable (.string s)
  | array {items : List Json} (all : ∀ item ∈ items, Readable item) : Readable (.array items)
  | object {members : List (String × Json)} (all : ∀ member ∈ members, Readable member.2) :
      Readable (.object members)

theorem writeItems_eq (items : List Json) : writeItems items = items.map writeChars := by
  induction items with
  | nil => rfl
  | cons item rest ih => rw [writeItems, ih, List.map_cons]

/-- The text of a member. -/
def memberChars (member : String × Json) : List Char :=
  quote member.1 ++ ':' :: writeChars member.2

theorem writeMembers_eq (members : List (String × Json)) :
    writeMembers members = members.map memberChars := by
  induction members with
  | nil => rfl
  | cons member rest ih => rw [writeMembers, ih, List.map_cons, memberChars]

/-- The characters with which values other than numbers start, and the closing bracket. -/
def starters : List Char := ['n', 't', 'f', '"', '[', '\x7b', ']']

theorem toChar_starts : ∀ d : Digit, isSpace d.toChar = false ∧ d.toChar ∉ starters := by
  decide

/-- Numbers start with a sign or a digit. -/
theorem head_number (h : n.WellFormed) :
    ∃ c cs, n.write = c :: cs ∧ isSpace c = false ∧ c ∉ starters := by
  rw [Numeral.write_eq]
  cases n.negative with
  | true => exact ⟨_, _, rfl, by decide⟩
  | false =>
    obtain ⟨d, ds, hd⟩ := List.exists_cons_of_ne_nil h.integer_ne
    rw [hd]
    exact ⟨_, _, rfl, toChar_starts d⟩

/-- Texts start with a character that is neither a blank nor a closing bracket. -/
theorem Readable.head {j : Json} (h : j.Readable) :
    ∃ c cs, j.writeChars = c :: cs ∧ isSpace c = false ∧ c ≠ ']' := by
  cases h with
  | null => exact ⟨_, _, rfl, by decide⟩
  | bool b => cases b <;> exact ⟨_, _, rfl, by decide⟩
  | number wellFormed =>
    obtain ⟨c, cs, hcs, hspace, hc⟩ := head_number wellFormed
    exact ⟨c, cs, hcs, hspace, fun h => hc (by simp [h, starters])⟩
  | string s => exact ⟨_, _, rfl, by decide⟩
  | array => exact ⟨_, _, rfl, by decide⟩
  | object => exact ⟨_, _, rfl, by decide⟩

theorem skipSpace_cons {c : Char} (h : isSpace c = false) (cs : List Char) :
    skipSpace (c :: cs) = c :: cs :=
  List.dropWhile_cons_of_neg (by rw [h]; exact Bool.false_ne_true)

/-- A value is read back whatever comes behind it, with enough fuel. -/
def ReadsBack (j : Json) : Prop :=
  ∀ rest fuel, EndsNumber rest → 2 * j.writeChars.length ≤ fuel →
    readValue? fuel (j.writeChars ++ rest) = some (j, rest)

theorem readsBack_of_succ {j : Json} (hne : j.writeChars ≠ [])
    (h : ∀ rest fuel, EndsNumber rest → 2 * j.writeChars.length ≤ fuel + 1 →
      readValue? (fuel + 1) (j.writeChars ++ rest) = some (j, rest)) : ReadsBack j := by
  intro rest fuel hr hf
  have hpos := List.length_pos_iff.mpr hne
  obtain ⟨fuel, rfl⟩ : ∃ more, fuel = more + 1 := ⟨fuel - 1, by omega⟩
  exact h rest fuel hr hf

theorem readValue?_number {fuel : Nat} {c : Char} {cs : List Char} (hspace : isSpace c = false)
    (hc : c ∉ starters) :
    readValue? (fuel + 1) (c :: cs) = (numeral? (c :: cs)).map fun (n, left) => (.number n, left) := by
  unfold readValue?
  rw [skipSpace_cons hspace]
  split
  case h_7 => rfl
  all_goals
    rename_i heq
    cases heq
    exact absurd (by decide) hc

theorem readsBack_number (h : n.WellFormed) : ReadsBack (.number n) := by
  obtain ⟨c, cs, hcs, hspace, hc⟩ := head_number h
  refine readsBack_of_succ (by simp [writeChars, hcs]) fun rest fuel hr _ => ?_
  have hread := numeral?_write h hr
  simp only [writeChars, hcs, List.cons_append] at hread ⊢
  rw [readValue?_number hspace hc, hread]
  rfl

theorem endsNumber_cons {c : Char} (h : c.isDigit = false ∧ c ≠ '.' ∧ c ≠ 'e' ∧ c ≠ 'E')
    (rest : List Char) : EndsNumber (c :: rest) := by
  rintro _ ⟨⟩
  exact h

/-- The items of an array are read back up to its closing bracket. -/
theorem readItems?_write {items : List Json} (hne : items ≠ []) (h : ∀ item ∈ items, ReadsBack item)
    {fuel : Nat} (hf : 2 * (commaSeparated (items.map writeChars)).length + 1 ≤ fuel) :
    readItems? fuel (commaSeparated (items.map writeChars) ++ ']' :: rest) = some (items, rest) := by
  induction items generalizing fuel with
  | nil => exact absurd rfl hne
  | cons item items ih =>
    obtain ⟨hitem, hitems⟩ := List.forall_mem_cons.mp h
    obtain ⟨fuel, rfl⟩ : ∃ more, fuel = more + 1 := ⟨fuel - 1, by omega⟩
    cases items with
    | nil =>
      have hread := hitem (']' :: rest) fuel (endsNumber_cons (by decide) _) (by
        simp only [List.map_cons, List.map_nil, commaSeparated] at hf
        omega)
      simp only [List.map_cons, List.map_nil, commaSeparated]
      unfold readItems?
      rw [hread]
      rfl
    | cons next items =>
      simp only [List.map_cons, commaSeparated, List.length_append, List.length_cons] at hf ih ⊢
      have hread := hitem (',' :: (commaSeparated (next.writeChars :: items.map writeChars) ++ ']' :: rest))
        fuel (endsNumber_cons (by decide) _) (by omega)
      have hmore := @ih (List.cons_ne_nil _ _) hitems fuel (by omega)
      rw [List.append_assoc, List.cons_append]
      unfold readItems?
      rw [hread]
      simp only [Option.bind_eq_bind, Option.bind_some, skipSpace_cons (c := ',') rfl,
        hmore]
      rfl

theorem commaSeparated_cons (text : List Char) (texts : List (List Char)) :
    ∃ more, commaSeparated (text :: texts) = text ++ more := by
  cases texts with
  | nil => exact ⟨[], (List.append_nil text).symm⟩
  | cons next texts => exact ⟨_, rfl⟩

theorem quote_append (name : String) (rest : List Char) :
    quote name ++ rest = '"' :: (name.toList.flatMap escapeChar ++ '"' :: rest) := by
  simp [quote]

/-- The members of an object are read back up to its closing brace. -/
theorem readMembers?_write {members : List (String × Json)} (hne : members ≠ [])
    (h : ∀ member ∈ members, ReadsBack member.2) {fuel : Nat}
    (hf : 2 * (commaSeparated (members.map memberChars)).length + 1 ≤ fuel) :
    readMembers? fuel (commaSeparated (members.map memberChars) ++ '\x7d' :: rest) =
      some (members.map fun member => (some member.1.toList, member.2), rest) := by
  induction members generalizing fuel with
  | nil => exact absurd rfl hne
  | cons member members ih =>
    obtain ⟨name, value⟩ := member
    obtain ⟨hfirst, hmembers⟩ := List.forall_mem_cons.mp h
    have hvalue : ReadsBack value := hfirst
    obtain ⟨fuel, rfl⟩ : ∃ more, fuel = more + 1 := ⟨fuel - 1, by omega⟩
    cases members with
    | nil =>
      simp only [List.map_cons, List.map_nil, commaSeparated, memberChars, List.length_append,
        List.length_cons] at hf ⊢
      have hread := hvalue ('\x7d' :: rest) fuel (endsNumber_cons (by decide) _) (by omega)
      rw [List.append_assoc, quote_append]
      unfold readMembers?
      simp only [skipSpace_cons (c := '"') rfl, stringBody?_text,
        Option.bind_eq_bind, Option.bind_some, List.cons_append,
        skipSpace_cons (c := ':') rfl, hread,
        skipSpace_cons (c := '\x7d') rfl]
      rfl
    | cons next members =>
      have hlater := @ih (List.cons_ne_nil _ _) hmembers fuel
      simp only [List.map_cons, commaSeparated, memberChars, List.length_append,
        List.length_cons] at hf hlater ⊢
      have hmore := hlater (by omega)
      have hread := hvalue (',' :: (commaSeparated ((quote next.1 ++ ':' :: next.2.writeChars) ::
        members.map memberChars) ++ '\x7d' :: rest)) fuel (endsNumber_cons (by decide) _) (by omega)
      rw [List.append_assoc, List.append_assoc, quote_append]
      unfold readMembers?
      simp only [skipSpace_cons (c := '"') rfl, stringBody?_text,
        Option.bind_eq_bind, Option.bind_some, List.cons_append,
        skipSpace_cons (c := ':') rfl, hread,
        skipSpace_cons (c := ',') rfl, hmore]
      rfl

theorem ofMembers_named (members : List (String × Json)) :
    ofMembers (members.map fun member => (some member.1.toList, member.2)) = .object members := by
  have hnamed : (members.map fun member => (some member.1.toList, member.2)).mapM
      (fun member => member.1.map fun text => (String.ofList text, member.2)) = some members := by
    induction members with
    | nil => rfl
    | cons member members ih =>
      rw [List.map_cons, List.mapM_cons, ih]
      simp
  unfold ofMembers
  split
  · rename_i named heq
    exact congrArg Json.object (Option.some.inj (heq.symm.trans hnamed))
  · rename_i heq
    cases heq.symm.trans hnamed

theorem readValue?_array {fuel : Nat} {c : Char} {cs : List Char} {items : List Json}
    (hspace : isSpace c = false) (hc : c ≠ ']') (h : readItems? fuel (c :: cs) = some (items, rest)) :
    readValue? (fuel + 1) ('[' :: c :: cs) = some (.array items, rest) := by
  unfold readValue?
  simp only [skipSpace_cons (c := '[') rfl, skipSpace_cons hspace]
  split
  · rename_i heq
    cases heq
    exact absurd rfl hc
  · rw [h]
    rfl

theorem readValue?_object {fuel : Nat} {cs : List Char} {members : List (Option (List Char) × Json)}
    (h : readMembers? fuel ('"' :: cs) = some (members, rest)) :
    readValue? (fuel + 1) ('\x7b' :: '"' :: cs) = some (ofMembers members, rest) := by
  unfold readValue?
  simp only [skipSpace_cons (c := '\x7b') rfl,
    skipSpace_cons (c := '"') rfl, h]
  rfl

/-- Every value that a text can stand for is read back. -/
theorem Readable.readsBack {j : Json} (h : j.Readable) : ReadsBack j := by
  induction h with
  | null => exact readsBack_of_succ (by simp [writeChars]) fun _ _ _ _ => rfl
  | bool b => cases b <;> exact readsBack_of_succ (by simp [writeChars]) fun _ _ _ _ => rfl
  | number wellFormed => exact readsBack_number wellFormed
  | string s =>
    refine readsBack_of_succ (by simp [writeChars, quote]) fun rest fuel _ _ => ?_
    rw [writeChars, quote_append]
    unfold readValue?
    simp only [skipSpace_cons (c := '"') rfl, stringBody?_text, Option.map_some,
      ofText, String.ofList_toList]
  | @array items all ih =>
    refine readsBack_of_succ (by simp [writeChars]) fun rest fuel _ hf => ?_
    rw [writeChars, writeItems_eq] at hf ⊢
    cases items with
    | nil => rfl
    | cons item items =>
      obtain ⟨c, cs, hcs, hspace, hc⟩ := (all item (List.mem_cons_self ..)).head
      obtain ⟨more, hmore⟩ := commaSeparated_cons item.writeChars (items.map writeChars)
      have hread := @readItems?_write rest _ (List.cons_ne_nil item items) ih fuel (by
        simp only [List.length_cons, List.length_append, List.length_nil] at hf
        omega)
      rw [List.map_cons, hmore, hcs] at hread ⊢
      simp only [List.cons_append, List.append_assoc] at hread ⊢
      exact readValue?_array hspace hc hread
  | @object members all ih =>
    refine readsBack_of_succ (by simp [writeChars]) fun rest fuel _ hf => ?_
    rw [writeChars, writeMembers_eq] at hf ⊢
    cases members with
    | nil => rfl
    | cons member members =>
      obtain ⟨more, hmore⟩ := commaSeparated_cons (memberChars member) (members.map memberChars)
      have hread := @readMembers?_write rest _ (List.cons_ne_nil member members) ih fuel (by
        simp only [List.length_cons, List.length_append, List.length_nil] at hf
        omega)
      rw [← ofMembers_named (member :: members)]
      rw [List.map_cons, hmore, memberChars, quote] at hread ⊢
      simp only [List.cons_append, List.append_assoc] at hread ⊢
      exact readValue?_object hread

/-- Reading the text of a value gives the value. -/
theorem parse?_write {j : Json} (h : j.Readable) : parse? j.write = some j := by
  have hread := h.readsBack [] (2 * (j.writeChars.length + 1)) nofun (by omega)
  rw [List.append_nil] at hread
  simp only [parse?, write, String.toList_ofList, hread]
  rfl

end Json

end ScriptEngine
