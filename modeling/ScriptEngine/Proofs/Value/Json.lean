import ScriptEngine.Proofs.Json.RoundTrip
import ScriptEngine.Value.Json

/-!
# Values are read back from their JSON texts

The JSON text of a value reads back as that value, in whatever order its members stand, and the text of a
number that is not finite does not read back as anything (`value_texts_read_back`). The numbers that are
written have the form that JSON asks for (`Numeral.ofFloat_wellFormed`, `Numeral.ofNat_wellFormed`), so
this is decided by how the parts of a value are read (`Value.ofJson?_toJson`): references are read as they
were written, and a double as what its digits are taken for.
-/

namespace ScriptEngine

theorem Decimal.head?_shortest (tie : Tie) (x : Float) : (shortest tie x).digits.head? ≠ some 0 := by
  unfold shortest
  dsimp only
  split
  · simp
  · exact (ofCoefficient_normalized ..).1

namespace Numeral

theorem wellFormed_of_head? {n : Numeral} (hne : n.integer ≠ []) (h : n.integer.head? ≠ some 0) :
    n.WellFormed where
  integer_ne := hne
  leading rest hzero := by
    rw [hzero] at h
    exact absurd rfl h

theorem wellFormed_of_single {n : Numeral} {d : Digit} (h : n.integer = [d]) : n.WellFormed where
  integer_ne := by
    rw [h]
    exact List.cons_ne_nil _ _
  leading rest hzero := by
    rw [h] at hzero
    cases hzero
    rfl

theorem ofNat_wellFormed (m : Nat) : (ofNat m).WellFormed := by
  by_cases h : m = 0
  · exact wellFormed_of_single (d := 0) (by simp [ofNat, h])
  · have hdigits : (ofNat m).integer = Decimal.digitsOf m := if_neg h
    refine wellFormed_of_head? ?_ ?_ <;> rw [hdigits]
    · exact Decimal.digitsOf_ne_nil h
    · exact Decimal.head?_digitsOf m

theorem ofFloat_wellFormed (x : Float) : (ofFloat x).WellFormed := by
  have hhead := Decimal.head?_shortest .even x
  unfold ofFloat
  dsimp only
  generalize Decimal.shortest .even x = d at hhead ⊢
  split
  · exact wellFormed_of_single rfl
  · rename_i hzero
    cases hdigits : d.digits with
    | nil => exact absurd (by rw [Decimal.isZero, hdigits]; rfl) hzero
    | cons first digits =>
      split
      · cases hscale : d.scale.toNat with
        | zero => exact wellFormed_of_single rfl
        | succ more =>
          have hfirst : d.digit (d.scale - (0 : Nat)) = first := by
            simp [Decimal.digit, hdigits]
          rw [hdigits] at hhead
          refine wellFormed_of_head? ?_ ?_ <;> simp only [List.range_succ_eq_map, List.map_cons, hfirst]
          · exact List.cons_ne_nil _ _
          · exact hhead
      · exact wellFormed_of_single rfl

end Numeral

/-! ## Values -/

/-- The members of an object in the opposite order. -/
def Json.reversed : Json → Json
  | .object members => .object members.reverse
  | j => j

namespace Value

/-- Whether a value is other than a number that is not finite. -/
def isFinite : Value → Bool
  | .numeric x => x.isFinite
  | _ => true

/-- Reads a value from a JSON text. -/
def decode? (text : String) : Option Value :=
  (Json.parse? text).bind ofJson?

theorem readable_ofFloat (x : Float) : (Json.ofFloat x).Readable := by
  unfold Json.ofFloat
  split
  · exact .number (Numeral.ofFloat_wellFormed x)
  · exact .null

theorem readable_toJson (v : Value) : v.toJson.Readable := by
  cases v with
  | invalid => exact .object (List.forall_mem_singleton.mpr (.string _))
  | numeric x =>
    exact .object (List.forall_mem_cons.mpr
      ⟨.string _, List.forall_mem_singleton.mpr (readable_ofFloat x)⟩)
  | string s =>
    exact .object (List.forall_mem_cons.mpr ⟨.string _, List.forall_mem_singleton.mpr (.string s)⟩)
  | reference id =>
    exact .object (List.forall_mem_cons.mpr
      ⟨.string _, List.forall_mem_singleton.mpr (.number (Numeral.ofNat_wellFormed _))⟩)

/-- What a value reads back as: a double as what its digits are taken for, and anything else as itself. -/
def readBack? : Value → Option Value
  | .numeric x => if x.isFinite then (Numeral.ofFloat x).toFloat?.map .numeric else none
  | v => some v

theorem toNat?_ofNat (id : UInt32) :
    ((Numeral.ofNat id.toNat).toNat? UInt32.size).map (fun id => reference (UInt32.ofNat id)) =
      some (reference id) := by
  have hvalue : Digit.value (Numeral.ofNat id.toNat).integer = id.toNat := by
    by_cases h : id.toNat = 0
    · simp [Numeral.ofNat, h, Digit.value]
    · simp [Numeral.ofNat, h, Decimal.value_digitsOf]
  have hlt : id.toNat < UInt32.size := id.toNat_lt_size
  have hread : (Numeral.ofNat id.toNat).toNat? UInt32.size = some id.toNat := by
    rw [Numeral.toNat?, hvalue]
    exact if_pos (by simpa [Numeral.ofNat, Numeral.isInteger] using hlt)
  rw [hread, Option.map_some, UInt32.ofNat_toNat]

/-- How the parts of a value are read, in whatever order its members stand. -/
theorem ofJson?_toJson (v : Value) :
    ofJson? v.toJson = v.readBack? ∧ ofJson? v.toJson.reversed = v.readBack? := by
  cases v with
  | invalid => exact ⟨rfl, rfl⟩
  | numeric x =>
    rw [toJson, readBack?, Json.ofFloat]
    cases x.isFinite <;> exact ⟨rfl, rfl⟩
  | string s => exact ⟨rfl, rfl⟩
  | reference id => exact ⟨toNat?_ofNat id, toNat?_ofNat id⟩

end Value

theorem Json.Readable.reversed {j : Json} (h : j.Readable) : j.reversed.Readable := by
  cases h with
  | object all => exact .object fun member hm => all member (List.mem_reverse.mp hm)
  | null => exact .null
  | bool b => exact .bool b
  | number wellFormed => exact .number wellFormed
  | string s => exact .string s
  | array all => exact .array all

/-- The JSON format of values reads what it writes. For every value other than a number that is not
finite, the text of the value reads back as exactly this value, and so does the text with the two members
the other way round. The text of a number that is not finite is rejected, in either order. It is assumed
of a finite double that the digits with which it is written are taken for the same double again. -/
theorem value_texts_read_back {v : Value}
    (hdigits : ∀ x, v = .numeric x → x.isFinite = true → (Numeral.ofFloat x).toFloat? = some x) :
    (v.isFinite = true →
      Value.decode? v.toJson.write = some v ∧ Value.decode? v.toJson.reversed.write = some v) ∧
    (v.isFinite = false →
      Value.decode? v.toJson.write = none ∧ Value.decode? v.toJson.reversed.write = none) := by
  have hread := Json.parse?_write v.readable_toJson
  have hreversed := Json.parse?_write v.readable_toJson.reversed
  obtain ⟨hplain, hother⟩ := v.ofJson?_toJson
  simp only [Value.decode?, hread, hreversed, Option.bind_some, hplain, hother, and_self]
  cases v with
  | numeric x =>
    refine ⟨fun hfinite => ?_, fun hinfinite => ?_⟩
    · have hfinite' : x.isFinite = true := hfinite
      simp only [Value.readBack?, hfinite', hdigits x rfl hfinite', if_true, Option.map_some]
    · have hinfinite' : x.isFinite = false := hinfinite
      simp only [Value.readBack?, hinfinite', Bool.false_eq_true, if_false]
  | _ => exact ⟨fun _ => rfl, nofun⟩

/-- Not every double meets the assumption: the digits of `1e-30` are taken for its neighbour below. -/
example : (Numeral.ofFloat 1e-30).toFloat? ≠ some 1e-30 := by decide +kernel

theorem negative_zero_text_reads_back :
    (∀ x, Value.numeric (-0.0) = .numeric x → x.isFinite = true →
      (Numeral.ofFloat x).toFloat? = some x) ∧
    (Value.numeric (-0.0)).isFinite = true ∧
    (Value.numeric (-0.0)).toJson.write = "\x7b\"type\":\"numeric\",\"value\":-0.0\x7d" ∧
    Value.decode? (Value.numeric (-0.0)).toJson.write = some (.numeric (-0.0)) ∧
    Value.decode? (Value.numeric (-0.0)).toJson.reversed.write = some (.numeric (-0.0)) ∧
    Value.decode? (Value.string "\"\\\x01").toJson.write = some (.string "\"\\\x01") ∧
    Value.decode? (Value.numeric (1.0 / 0.0)).toJson.write = none := by
  have hdigits : ∀ x, Value.numeric (-0.0) = .numeric x → x.isFinite = true →
      (Numeral.ofFloat x).toFloat? = some x := by
    intro x hx _
    cases hx
    decide +kernel
  have hinfinite : ∀ x, Value.numeric (1.0 / 0.0) = .numeric x → x.isFinite = true →
      (Numeral.ofFloat x).toFloat? = some x := by
    intro x hx hfinite
    cases hx
    exact absurd hfinite (by decide +kernel)
  obtain ⟨hplain, hreversed⟩ := (value_texts_read_back hdigits).1 (by decide +kernel)
  refine ⟨hdigits, by decide +kernel, by decide +kernel, hplain, hreversed, ?_, ?_⟩
  · exact ((value_texts_read_back (v := .string "\"\\\x01") nofun).1 rfl).1
  · exact ((value_texts_read_back hinfinite).2 (by decide +kernel)).1

end ScriptEngine
