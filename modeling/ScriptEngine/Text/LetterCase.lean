import ScriptEngine.Text.CaseTable

/-!
# Upper and lower case of texts

`toUpper` and `toLower` follow the full Unicode case mappings, which do not depend on a language.
A form may have more than one character, and a capital sigma becomes a final sigma at the end of a
word.
-/

namespace ScriptEngine.Text

/-- Whether a run holds a code point. -/
def CaseRun.contains (run : CaseRun) (n : Nat) : Bool :=
  run.first ≤ n && n ≤ run.last && (n - run.first) % run.step == 0

/-- The form of a character under a case mapping. -/
def caseForm (sequences : List (Nat × List Nat)) (runs : List CaseRun) (c : Char) : List Char :=
  match sequences.lookup c.toNat with
  | some form => form.map Char.ofNat
  | none =>
    match runs.find? (·.contains c.toNat) with
    | some run => [Char.ofNat (c.toNat + run.shift).toNat]
    | none => [c]

/-- The upper case form of a character. -/
def upperForm (c : Char) : List Char :=
  caseForm upperSequences upperRuns c

/-- The lower case form of a character. -/
def lowerForm (c : Char) : List Char :=
  caseForm lowerSequences lowerRuns c

/-- The form of a character if that is one character, else the character itself. -/
def singleForm (form : List Char) (c : Char) : Char :=
  match form with
  | [d] => d
  | _ => c

/-- Whether a character lies in one of the runs. -/
def inRuns (runs : List (Nat × Nat)) (c : Char) : Bool :=
  runs.any fun (first, last) => first ≤ c.toNat && c.toNat ≤ last

/-- Whether a text, apart from characters that do not matter for case, starts with a letter that
has case. -/
def startsCased (cs : List Char) : Bool :=
  match cs.dropWhile (inRuns ignorableRuns) with
  | [] => false
  | c :: _ => inRuns casedRuns c

/-- The lower case of what follows the characters `before`, given last one first. -/
def lowerAfter (before : List Char) : List Char → List Char
  | [] => []
  | c :: rest =>
    let form :=
      if c = 'Σ' then [if startsCased before && !startsCased rest then 'ς' else 'σ']
      else lowerForm c
    form ++ lowerAfter (c :: before) rest

/-- A text in upper case. -/
def toUpper (s : String) : String :=
  String.ofList (s.toList.flatMap upperForm)

/-- A text in lower case. -/
def toLower (s : String) : String :=
  String.ofList (lowerAfter [] s.toList)

end ScriptEngine.Text
