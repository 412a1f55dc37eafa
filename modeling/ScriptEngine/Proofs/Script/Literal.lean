import Mathlib.Data.Nat.Digits.Defs
import ScriptEngine.Proofs.Decimal.Digits
import ScriptEngine.Proofs.Text
import ScriptEngine.Script.Reader

/-!
# What the literals of scripts are

The texts that name a type and the texts that denote a value of a type, each said by a grammar of its own:
`NamesType` and `IsLiteral`. The readers accept exactly these texts (`parse?_eq_some_iff`,
`literal?_isSome_iff`).
-/

namespace ScriptEngine

/-- The names that types have. -/
def DataType.names : List (String × DataType) :=
  [("invalid", .invalid), ("void", .invalid), ("numeric", .numeric), ("number", .numeric),
    ("string", .string), ("reference", .reference), ("ref", .reference), ("multi", .multi)]

/-- A text names a type, with blanks around it and letters of either case. -/
def NamesType (text : String) (type : DataType) : Prop :=
  ∃ name, (name, type) ∈ DataType.names ∧ Text.SameName (Text.trim text) name

theorem lower_typeName : ∀ named ∈ DataType.names, Text.lower named.1 = named.1 := by
  decide

theorem parse?_eq_some_iff {text : String} {type : DataType} :
    DataType.parse? text = some type ↔ NamesType text type := by
  have hnames : NamesType text type ↔ (DataType.spelling text, type) ∈ DataType.names := by
    constructor
    · rintro ⟨name, hm, hs⟩
      rwa [DataType.spelling, (Text.sameName_iff_of_lower (lower_typeName _ hm) _).mp hs]
    · intro hm
      exact ⟨_, hm, (Text.sameName_iff_of_lower (lower_typeName _ hm) _).mpr rfl⟩
  rw [hnames, DataType.parse?]
  generalize DataType.spelling text = spelled
  split <;> simp_all [DataType.names, eq_comm]

theorem namesType_trim {text : String} {type : DataType} :
    NamesType (Text.trim text) type ↔ NamesType text type := by
  rw [NamesType, NamesType, Text.trim_trim]

theorem NamesType.unique {text : String} {type other : DataType} (h : NamesType text type)
    (h' : NamesType text other) : type = other :=
  Option.some.inj ((parse?_eq_some_iff.mpr h).symm.trans (parse?_eq_some_iff.mpr h'))

/-! ## Numbers -/

/-- At most one sign. -/
def IsSign (cs : List Char) : Prop :=
  cs = [] ∨ cs = ['+'] ∨ cs = ['-']

/-- Nothing but decimal digits. -/
def AreDigits (cs : List Char) : Prop :=
  ∀ c ∈ cs, c.isDigit = true

/-- An exponent behind a number, if any: a mark, a sign and digits. -/
inductive IsExponent : List Char → Prop
  | none : IsExponent []
  | some {mark : Char} {sign digits : List Char} (marked : mark = 'e' ∨ mark = 'E')
      (signed : IsSign sign) (digits_ne : digits ≠ []) (areDigits : AreDigits digits) :
      IsExponent (mark :: (sign ++ digits))

/-- A decimal number without sign. At least one digit stands beside the point. -/
inductive IsDecimal : List Char → Prop
  | whole {integer exponent : List Char} (integer_ne : integer ≠ []) (areDigits : AreDigits integer)
      (ending : IsExponent exponent) : IsDecimal (integer ++ exponent)
  | pointed {integer fraction exponent : List Char} (some_ne : integer ≠ [] ∨ fraction ≠ [])
      (areDigits : AreDigits integer) (areDigits' : AreDigits fraction)
      (ending : IsExponent exponent) : IsDecimal (integer ++ '.' :: (fraction ++ exponent))

/-- The words for infinity and for no number. -/
def numberWords : List String := ["inf", "infinity", "nan"]

/-- A number without sign: a decimal number, or a word in letters of either case. -/
def IsMagnitude (cs : List Char) : Prop :=
  IsDecimal cs ∨ ∃ word ∈ numberWords, Text.SameName (String.ofList cs) word

/-- A number. -/
def IsNumber (cs : List Char) : Prop :=
  ∃ sign magnitude, cs = sign ++ magnitude ∧ IsSign sign ∧ IsMagnitude magnitude

/-- What stands behind a sign, if no sign stands there again. -/
theorem signPart_iff {P : List Char → Prop} (hplus : ∀ rest, ¬ P ('+' :: rest))
    (hminus : ∀ rest, ¬ P ('-' :: rest)) {cs : List Char} :
    P (signPart cs).2 ↔ ∃ sign body, cs = sign ++ body ∧ IsSign sign ∧ P body := by
  constructor
  · intro h
    unfold signPart at h
    split at h
    · exact ⟨['-'], _, rfl, .inr (.inr rfl), h⟩
    · exact ⟨['+'], _, rfl, .inr (.inl rfl), h⟩
    · exact ⟨[], cs, rfl, .inl rfl, h⟩
  · rintro ⟨sign, body, rfl, rfl | rfl | rfl, h⟩
    · rw [List.nil_append]
      unfold signPart
      split
      · exact absurd h (hminus _)
      · exact absurd h (hplus _)
      · exact h
    · exact h
    · exact h

/-- Digits in front of something that does not begin with a digit. -/
theorem run_append {digits rest : List Char} (hd : AreDigits digits)
    (hr : ∀ c ∈ rest.head?, c.isDigit = false) :
    Digit.run (digits ++ rest) = (digits.map Digit.ofChar, rest) := by
  have htake : rest.takeWhile Char.isDigit = [] := by
    cases rest with
    | nil => rfl
    | cons c rest => exact List.takeWhile_cons_of_neg (by rw [hr c rfl]; decide)
  have hdrop : rest.dropWhile Char.isDigit = rest := by
    cases rest with
    | nil => rfl
    | cons c rest => exact List.dropWhile_cons_of_neg (by rw [hr c rfl]; decide)
  rw [Digit.run, List.takeWhile_append_of_pos hd, List.dropWhile_append_of_pos hd, htake, hdrop,
    List.append_nil]

theorem Digit.areDigits_map (ds : List Digit) : AreDigits (ds.map toChar) := by
  intro c hc
  obtain ⟨d, -, rfl⟩ := List.mem_map.mp hc
  exact isDigit_toChar d

/-- Digits that were written are read back. -/
theorem Digit.run_map (ds : List Digit) {rest : List Char}
    (hr : ∀ c ∈ rest.head?, c.isDigit = false) : run (ds.map toChar ++ rest) = (ds, rest) := by
  have hback : (ds.map toChar).map ofChar = ds := by
    rw [List.map_map]
    exact (List.map_congr_left fun d _ => ofChar_toChar d).trans (List.map_id ds)
  rw [run_append (areDigits_map ds) hr, hback]

/-- Every text begins with digits, which may be none, and goes on with something else. -/
theorem exists_digits (cs : List Char) :
    ∃ digits rest, cs = digits ++ rest ∧ AreDigits digits ∧ ∀ c ∈ rest.head?, c.isDigit = false := by
  refine ⟨cs.takeWhile Char.isDigit, cs.dropWhile Char.isDigit,
    List.takeWhile_append_dropWhile.symm, fun c hc => List.mem_takeWhile_imp hc, fun c hc => ?_⟩
  have hn := List.head?_dropWhile_not Char.isDigit cs
  rw [Option.mem_def.mp hc] at hn
  simpa using hn

theorem IsExponent.head {cs : List Char} (h : IsExponent cs) :
    ∀ c ∈ cs.head?, c.isDigit = false ∧ c ≠ '.' := by
  cases h with
  | none => exact fun _ hc => by cases hc
  | some marked =>
    intro c hc
    rw [← Option.some.inj hc]
    rcases marked with rfl | rfl
    · decide
    · decide

/-- Whether a text is a run of digits, of which there is at least one. -/
theorem run_all_iff {cs : List Char} :
    (∃ d digits, Digit.run cs = (d :: digits, [])) ↔ cs ≠ [] ∧ AreDigits cs := by
  obtain ⟨digits, rest, rfl, hd, hr⟩ := exists_digits cs
  rw [run_append hd hr]
  constructor
  · rintro ⟨d, others, h⟩
    obtain ⟨hm, rfl⟩ := Prod.mk.inj h
    rw [List.append_nil]
    refine ⟨fun hn => ?_, hd⟩
    rw [hn] at hm
    cases hm
  · rintro ⟨hne, hall⟩
    have hrest : rest = [] := by
      cases rest with
      | nil => rfl
      | cons c others =>
        have hc := hall c (List.mem_append_right _ (List.mem_cons_self ..))
        rw [hr c rfl] at hc
        cases hc
    subst hrest
    rw [List.append_nil] at hne
    obtain ⟨c, others, rfl⟩ := List.exists_cons_of_ne_nil hne
    exact ⟨_, _, rfl⟩

theorem exponentValue?_isSome_iff (cs : List Char) :
    (exponentValue? cs).isSome = true ↔ IsExponent cs := by
  cases cs with
  | nil => exact iff_of_true rfl .none
  | cons mark rest =>
    have hread : (exponentValue? (mark :: rest)).isSome = true ↔
        (mark = 'e' ∨ mark = 'E') ∧ (signPart rest).2 ≠ [] ∧ AreDigits (signPart rest).2 := by
      rw [← run_all_iff]
      simp only [exponentValue?]
      split
      · rename_i d digits hrun
        simp [hrun]
      · rename_i hrun
        simp only [Option.isSome_none, Bool.false_eq_true, false_iff, not_and, not_exists]
        exact fun _ d digits h => hrun d digits h
    rw [hread, signPart_iff (P := fun body => body ≠ [] ∧ AreDigits body)
      (fun rest h => absurd (h.2 '+' (List.mem_cons_self ..)) (by decide))
      (fun rest h => absurd (h.2 '-' (List.mem_cons_self ..)) (by decide))]
    constructor
    · rintro ⟨hm, sign, digits, rfl, hs, hne, hd⟩
      exact .some hm hs hne hd
    · intro h
      cases h with
      | some marked signed digits_ne areDigits =>
        exact ⟨marked, _, _, rfl, signed, digits_ne, areDigits⟩

theorem isSome_decimal_iff (negative : Bool) (integer fraction : List Digit) (ending : List Char) :
    (if (integer.isEmpty && fraction.isEmpty) = true then none
      else do return Decimal.ofParts negative integer fraction (← exponentValue? ending)).isSome = true ↔
      (integer ≠ [] ∨ fraction ≠ []) ∧ (exponentValue? ending).isSome = true := by
  cases exponentValue? ending with
  | none => simp
  | some exponent => cases integer <;> cases fraction <;> simp

theorem unsignedDecimal?_whole (negative : Bool) {integer rest : List Char} (hi : AreDigits integer)
    (hr : ∀ c ∈ rest.head?, c.isDigit = false ∧ c ≠ '.') :
    (unsignedDecimal? negative (integer ++ rest)).isSome = true ↔
      integer ≠ [] ∧ IsExponent rest := by
  have hpoint (after : List Char) : rest ≠ '.' :: after := fun h => (hr '.' (by rw [h]; rfl)).2 rfl
  rw [← exponentValue?_isSome_iff, unsignedDecimal?, run_append hi fun c hc => (hr c hc).1]
  dsimp only
  split
  · rename_i after
    exact absurd rfl (hpoint after)
  · rw [isSome_decimal_iff]
    simp

theorem unsignedDecimal?_pointed (negative : Bool) {integer fraction rest : List Char}
    (hi : AreDigits integer) (hf : AreDigits fraction) (hr : ∀ c ∈ rest.head?, c.isDigit = false) :
    (unsignedDecimal? negative (integer ++ '.' :: (fraction ++ rest))).isSome = true ↔
      (integer ≠ [] ∨ fraction ≠ []) ∧ IsExponent rest := by
  have hpoint : ∀ c ∈ ('.' :: (fraction ++ rest)).head?, c.isDigit = false := by
    rintro c ⟨⟩
    rfl
  rw [← exponentValue?_isSome_iff, unsignedDecimal?, run_append hi hpoint]
  simp only [run_append hf hr]
  rw [isSome_decimal_iff]
  simp

theorem unsignedDecimal?_isSome_iff (negative : Bool) (cs : List Char) :
    (unsignedDecimal? negative cs).isSome = true ↔ IsDecimal cs := by
  constructor
  · obtain ⟨integer, rest, rfl, hi, hr⟩ := exists_digits cs
    by_cases hp : rest.head? = some '.'
    · obtain ⟨after, rfl⟩ : ∃ after, rest = '.' :: after := by
        cases rest with
        | nil => cases hp
        | cons c after => exact ⟨after, by rw [Option.some.inj hp]⟩
      obtain ⟨fraction, rest, rfl, hf, hr⟩ := exists_digits after
      rw [unsignedDecimal?_pointed negative hi hf hr]
      exact fun h => .pointed h.1 hi hf h.2
    · have hrest : ∀ c ∈ rest.head?, c.isDigit = false ∧ c ≠ '.' :=
        fun c hc => ⟨hr c hc, fun he => hp (he ▸ hc)⟩
      rw [unsignedDecimal?_whole negative hi hrest]
      exact fun h => .whole h.1 hi h.2
  · intro h
    cases h with
    | whole integer_ne areDigits ending =>
      exact (unsignedDecimal?_whole negative areDigits ending.head).mpr ⟨integer_ne, ending⟩
    | pointed some_ne areDigits areDigits' ending =>
      exact (unsignedDecimal?_pointed negative areDigits areDigits' fun c hc => (ending.head c hc).1).mpr
        ⟨some_ne, ending⟩

/-- A decimal number begins with a digit or a point. -/
theorem IsDecimal.head {c : Char} {rest : List Char} (h : IsDecimal (c :: rest)) :
    c.isDigit = true ∨ c = '.' := by
  generalize hcs : c :: rest = cs at h
  cases h with
  | @whole integer exponent integer_ne areDigits ending =>
    obtain ⟨d, digits, rfl⟩ := List.exists_cons_of_ne_nil integer_ne
    rw [(List.cons.inj hcs).1]
    exact .inl (areDigits d (List.mem_cons_self ..))
  | @pointed integer fraction exponent some_ne areDigits areDigits' ending =>
    cases integer with
    | nil => exact .inr (List.cons.inj hcs).1
    | cons d digits =>
      rw [(List.cons.inj hcs).1]
      exact .inl (areDigits d (List.mem_cons_self ..))

theorem isMagnitude_iff {cs : List Char} :
    IsMagnitude cs ↔ IsDecimal cs ∨ String.ofList (cs.map Char.toLower) ∈ numberWords := by
  have hlower : ∀ word ∈ numberWords, Text.lower word = word := by decide
  have hspelled : Text.lower (String.ofList cs) = String.ofList (cs.map Char.toLower) := by
    rw [Text.lower, String.toList_ofList]
  refine or_congr_right ⟨?_, fun hw => ⟨_, hw, ?_⟩⟩
  · rintro ⟨word, hw, hs⟩
    rwa [← hspelled, (Text.sameName_iff_of_lower (hlower word hw) _).mp hs]
  · rw [Text.sameName_iff_of_lower (hlower _ hw), hspelled]

theorem not_isMagnitude_sign {sign : Char} (h : sign = '+' ∨ sign = '-') (rest : List Char) :
    ¬ IsMagnitude (sign :: rest) := by
  have hlower : sign.toLower = sign := by
    rcases h with rfl | rfl <;> rfl
  rw [isMagnitude_iff, List.map_cons, hlower]
  rintro (hd | hw)
  · rcases hd.head with hc | hc <;> rcases h with rfl | rfl <;> cases hc
  · simp only [numberWords, List.mem_cons, List.not_mem_nil, or_false, ← String.toList_inj,
      String.toList_ofList] at hw
    rcases h with rfl | rfl <;> simp at hw

theorem parseFloat?_isSome_iff (text : String) :
    (parseFloat? text).isSome = true ↔ IsNumber text.toList := by
  have hread : (parseFloat? text).isSome = true ↔ IsMagnitude (signPart text.toList).2 := by
    rw [isMagnitude_iff, ← unsignedDecimal?_isSome_iff (signPart text.toList).1, parseFloat?]
    dsimp only
    generalize String.ofList ((signPart text.toList).2.map Char.toLower) = spelled
    split
    · exact iff_of_true rfl (.inr (by decide))
    · exact iff_of_true rfl (.inr (by decide))
    · exact iff_of_true rfl (.inr (by decide))
    · simp_all [numberWords]
  rw [hread]
  exact signPart_iff (not_isMagnitude_sign (.inl rfl)) (not_isMagnitude_sign (.inr rfl))

/-! ## References -/

/-- A character is a digit of a base with a value. -/
def IsDigitOf (base : Nat) (c : Char) (value : Nat) : Prop :=
  value < base ∧
    (value < 10 ∧ c.toNat = '0'.toNat + value ∨
      10 ≤ value ∧ value < 16 ∧
        (c.toNat + 10 = 'a'.toNat + value ∨ c.toNat + 10 = 'A'.toNat + value))

/-- A number of 32 bits that is written in a base, with an optional plus sign. -/
def IsUnsigned (base : Nat) (cs : List Char) : Prop :=
  ∃ sign digits values, cs = sign ++ digits ∧ (sign = [] ∨ sign = ['+']) ∧ digits ≠ [] ∧
    List.Forall₂ (IsDigitOf base) digits values ∧ Nat.ofDigits base values.reverse < UInt32.size

/-- A reference in decimal, or behind a mark in hexadecimal. -/
def IsReference (cs : List Char) : Prop :=
  IsUnsigned 10 cs ∨
    ∃ mark digits, cs = '0' :: mark :: digits ∧ (mark = 'x' ∨ mark = 'X') ∧ IsUnsigned 16 digits

theorem digitValue?_eq_some_iff {base value : Nat} {c : Char} :
    Text.digitValue? base c = some value ↔ IsDigitOf base c value := by
  have hdecimal : c.isDigit = true ↔ 48 ≤ c.toNat ∧ c.toNat ≤ 57 := by
    rw [Char.isDigit, Bool.and_eq_true, decide_eq_true_iff, decide_eq_true_iff]
    exact Iff.rfl
  have hsmall : 'a' ≤ c ∧ c ≤ 'f' ↔ 97 ≤ c.toNat ∧ c.toNat ≤ 102 := Iff.rfl
  have hcapital : 'A' ≤ c ∧ c ≤ 'F' ↔ 65 ≤ c.toNat ∧ c.toNat ≤ 70 := Iff.rfl
  simp only [Text.digitValue?, Text.hexValue?, IsDigitOf, Option.filter_eq_some_iff, decide_eq_true_iff,
    hdecimal, hsmall, hcapital, Char.reduceToNat]
  split
  · simp only [Option.some.injEq]
    omega
  · split
    · simp only [Option.some.injEq]
      omega
    · split
      · simp only [Option.some.injEq]
        omega
      · simp only [reduceCtorEq, false_and, false_iff]
        omega

theorem mapM_digitValue?_eq_some_iff {base : Nat} {digits : List Char} {values : List Nat} :
    digits.mapM (Text.digitValue? base) = some values ↔
      List.Forall₂ (IsDigitOf base) digits values := by
  induction digits generalizing values with
  | nil =>
    rw [List.forall₂_nil_left_iff]
    exact ⟨fun h => (Option.some.inj h).symm, fun h => congrArg some h.symm⟩
  | cons c rest ih =>
    rw [List.forall₂_cons_left_iff]
    simp only [List.mapM_cons, Option.bind_eq_bind, Option.bind_eq_some_iff, Option.pure_def,
      Option.some.injEq, digitValue?_eq_some_iff, ih]
    constructor
    · rintro ⟨value, hv, others, ho, rfl⟩
      exact ⟨value, others, hv, ho, rfl⟩
    · rintro ⟨value, others, hv, ho, rfl⟩
      exact ⟨value, hv, others, ho, rfl⟩

theorem foldl_eq_ofDigits (base : Nat) (values : List Nat) :
    values.foldl (fun n d => base * n + d) 0 = Nat.ofDigits base values.reverse := by
  rw [Nat.ofDigits_eq_foldr, List.foldr_reverse]
  simp only [Nat.cast_id, Nat.add_comm]

theorem codePoint?_isSome_iff {base : Nat} {digits : List Char} :
    (Markup.codePoint? base digits).isSome = true ↔ digits ≠ [] ∧
      ∃ values, List.Forall₂ (IsDigitOf base) digits values ∧
        Nat.ofDigits base values.reverse < UInt32.size := by
  simp only [← mapM_digitValue?_eq_some_iff, ← foldl_eq_ofDigits, Markup.codePoint?]
  cases digits.mapM (Text.digitValue? base) with
  | none => simp
  | some values => simp [Option.isSome_iff_exists, and_comm]

theorem unsigned?_isSome_iff {base : Nat} {cs : List Char} :
    (unsigned? base cs).isSome = true ↔ IsUnsigned base cs := by
  unfold unsigned?
  simp only [Option.isSome_map, codePoint?_isSome_iff]
  constructor
  · intro h
    split at h
    · obtain ⟨hne, values, hv, hn⟩ := h
      exact ⟨['+'], _, values, rfl, .inr rfl, hne, hv, hn⟩
    · obtain ⟨hne, values, hv, hn⟩ := h
      exact ⟨[], cs, values, rfl, .inl rfl, hne, hv, hn⟩
  · rintro ⟨sign, digits, values, rfl, rfl | rfl, hne, hv, hn⟩
    · rw [List.nil_append]
      split
      · -- A plus sign is no digit.
        cases hv with
        | cons hplus _ =>
          simp only [IsDigitOf, Char.reduceToNat] at hplus
          omega
      · exact ⟨hne, values, hv, hn⟩
    · exact ⟨hne, values, hv, hn⟩

/-- The marks of hexadecimal numbers are no decimal digits. -/
theorem isReference_hexadecimal {mark : Char} (hm : mark = 'x' ∨ mark = 'X') {digits : List Char} :
    IsReference ('0' :: mark :: digits) ↔ IsUnsigned 16 digits := by
  constructor
  · rintro (⟨sign, others, values, hcs, rfl | rfl, -, hv, -⟩ | ⟨other, others, hcs, -, h⟩)
    · rw [List.nil_append] at hcs
      subst hcs
      obtain ⟨_, _, -, hrest, -⟩ := List.forall₂_cons_left_iff.mp hv
      obtain ⟨_, _, hmark, -, -⟩ := List.forall₂_cons_left_iff.mp hrest
      rcases hm with rfl | rfl <;> simp only [IsDigitOf, Char.reduceToNat] at hmark <;> omega
    · cases hcs
    · cases hcs
      exact h
  · exact fun h => .inr ⟨mark, digits, rfl, hm, h⟩

theorem reference?_isSome_iff (text : String) :
    (reference? text).isSome = true ↔ IsReference (Text.trim text).toList := by
  unfold reference?
  split
  · rename_i digits hcs
    rw [hcs, isReference_hexadecimal (.inl rfl), unsigned?_isSome_iff]
  · rename_i digits hcs
    rw [hcs, isReference_hexadecimal (.inr rfl), unsigned?_isSome_iff]
  · rename_i hx hX
    rw [unsigned?_isSome_iff]
    refine ⟨.inl, ?_⟩
    rintro (h | ⟨mark, digits, hcs, rfl | rfl, -⟩)
    · exact h
    · exact absurd hcs (hx digits)
    · exact absurd hcs (hX digits)

/-- A text denotes a value of a type. Any text does of a type to which texts belong. -/
def IsLiteral (text : String) : DataType → Prop
  | .numeric => IsNumber (Text.trim text).toList
  | .reference => IsReference (Text.trim text).toList
  | .string | .multi => True
  | .invalid => False

theorem literal?_isSome_iff (type : DataType) (text : String) :
    (literal? type text).isSome = true ↔ IsLiteral text type := by
  cases type with
  | invalid => exact iff_of_false nofun id
  | numeric => rw [literal?, Option.isSome_map, parseFloat?_isSome_iff, IsLiteral]
  | string => exact iff_of_true rfl trivial
  | reference => rw [literal?, Option.isSome_map, reference?_isSome_iff, IsLiteral]
  | multi => exact iff_of_true rfl trivial

end ScriptEngine
