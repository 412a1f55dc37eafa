import Mathlib.Logic.Relation
import ScriptEngine.Proofs.Direct.Reading
import ScriptEngine.Proofs.Script.Literal

/-!
# The grammar of scripts

`IsScript` says which markup trees are scripts, with no regard to how they are read. A reader `Decides`
such a condition if it accepts what fulfils it and finds fault with all else, at the place of an element
of the tree that it is given; readers that decide can be run one after the other (`Decides.bind`).
-/

namespace ScriptEngine.Grammar

open Markup (Element Node)

/-- An element is another one or stands inside it. -/
def Within (e root : Element) : Prop :=
  Relation.ReflTransGen (fun child parent => child ∈ parent.elements) e root

/-- A text has more than blanks. -/
def IsFilled (text : String) : Prop :=
  ∃ c ∈ text.toList, Text.isBlank c = false

/-- An attribute is there and has more than blanks. -/
def HasAttribute (e : Element) (key : String) : Prop :=
  ∃ text, e.get? key = some text ∧ IsFilled text

/-- A letter or an underscore, then letters, digits and underscores. -/
def IsIdentifier (cs : List Char) : Prop :=
  ∃ c rest, cs = c :: rest ∧ (c.isAlpha = true ∨ c = '_') ∧ ∀ d ∈ rest, d.isAlphanum = true ∨ d = '_'

/-- An attribute is there and is an identifier between blanks. -/
def HasIdentifier (e : Element) (key : String) : Prop :=
  ∃ text, e.get? key = some text ∧ IsIdentifier (Text.trim text).toList

/-- An attribute names a type if it is there. -/
def MayHaveType (e : Element) (key : String) : Prop :=
  ∀ text, e.get? key = some text → ∃ type, NamesType text type

/-- There is more than blanks directly inside an element. -/
def HasText (e : Element) : Prop :=
  ∃ text ∈ e.children.filterMap Node.text?, IsFilled text

/-- An argument of a command. -/
structure IsArgument (e : Element) : Prop where
  name : e.name = "arg"
  expression : HasText e

/-- A use of a command, which may have a slot for its result and a type to expect. -/
structure IsCommand (e : Element) : Prop where
  name : e.name = "command"
  command : HasIdentifier e "name"
  result : (e.get? "into").isSome = true → HasIdentifier e "into"
  expect : MayHaveType e "as"
  arguments : ∀ a ∈ e.elements, IsArgument a

/-- An assignment. -/
structure IsAssignment (e : Element) : Prop where
  name : e.name = "set"
  target : HasIdentifier e "name"
  expression : HasText e

/-- An instruction of a script. -/
inductive IsInstruction : Element → Prop
  | set {e : Element} (assignment : IsAssignment e) : IsInstruction e
  | command {e : Element} (command : IsCommand e) : IsInstruction e
  | loop {e : Element} (name : e.name = "while") (condition : HasAttribute e "when")
      (body : ∀ i ∈ e.elements, IsInstruction i) : IsInstruction e
  | choice {e : Element} (name : e.name = "if") (condition : HasAttribute e "when")
      (atMostOne : e.elements.countP (·.name = "else") ≤ 1)
      (body : ∀ i ∈ e.elements, i.name ≠ "else" → IsInstruction i)
      (otherwise : ∀ b ∈ e.elements, b.name = "else" → ∀ i ∈ b.elements, IsInstruction i) :
      IsInstruction e

/-- A parameter has a default. -/
def IsOptional (e : Element) : Prop :=
  (e.get? "default").isSome = true

/-- A parameter of a script. -/
structure IsParameter (e : Element) : Prop where
  name : e.name = "param"
  named : HasIdentifier e "name"
  typed : ∃ text type, e.get? "type" = some text ∧ NamesType text type ∧
    ∀ default, e.get? "default" = some default → IsLiteral default type

/-- A script: parameters, of which none without default stands behind one with default, and then
instructions. -/
structure IsScript (root : Element) : Prop where
  name : root.name = "script"
  named : HasIdentifier root "name"
  returns : MayHaveType root "return"
  inside : ∃ parameters instructions, root.elements = parameters ++ instructions ∧
    (∀ e ∈ parameters, IsParameter e) ∧
    parameters.Pairwise (fun e later => IsOptional e → IsOptional later) ∧
    ∀ e ∈ instructions, IsInstruction e

/-! ## Readers that decide -/

/-- A fault in the writing of a script, at the place of an element. -/
structure IsAt (root : Element) (fault : Fault) : Prop where
  kind : fault.kind = .parse
  place : ∃ e, Within e root ∧ fault.span = some e.span

/-- A reader accepts if a condition is fulfilled, and else finds fault with an element of a tree. -/
inductive Decides {α : Type} (condition : Prop) (root : Element) : Except Fault α → Prop
  | accepts (value : α) (h : condition) : Decides condition root (.ok value)
  | rejects {fault : Fault} (h : ¬ condition) (placed : IsAt root fault) :
      Decides condition root (.error fault)

section

variable {α β : Type} {condition other : Prop} {root e : Element} {read : Except Fault α}

theorem within_self (e : Element) : Within e e :=
  .refl

theorem Within.child (h : Within e root) {child : Element} (hc : child ∈ e.elements) :
    Within child root :=
  .head hc h

theorem Decides.ok_iff (h : Decides condition root read) :
    (∃ value, read = .ok value) ↔ condition := by
  cases h with
  | accepts value h => exact iff_of_true ⟨value, rfl⟩ h
  | rejects h _ => exact iff_of_false (fun ⟨_, hr⟩ => by cases hr) h

theorem Decides.isAt {fault : Fault} (h : Decides condition root (.error fault : Except Fault α)) :
    IsAt root fault := by
  cases h with
  | rejects _ placed => exact placed

theorem Decides.congr (h : Decides condition root read) (hc : condition ↔ other) :
    Decides other root read := by
  cases h with
  | accepts value h => exact .accepts value (hc.mp h)
  | rejects h placed => exact .rejects (mt hc.mpr h) placed

theorem Decides.within (h : Decides condition e read) (hw : Within e root) :
    Decides condition root read := by
  cases h with
  | accepts value h => exact .accepts value h
  | rejects h placed =>
    obtain ⟨hk, inner, hi, hs⟩ := placed
    exact .rejects h ⟨hk, inner, hi.trans hw, hs⟩

theorem decides_fault (h : ¬ condition) (hw : Within e root) (cause : ScriptFault) :
    Decides condition root (.error (e.fault cause) : Except Fault α) :=
  .rejects h ⟨rfl, e, hw, rfl⟩

/-- First one thing is read, of which the condition needs what decides on it, and then the rest. -/
theorem Decides.bind (h : Decides other root read) (hc : condition → other)
    {rest : α → Except Fault β}
    (hr : ∀ value, read = .ok value → other → Decides condition root (rest value)) :
    Decides condition root (read >>= rest) := by
  cases h with
  | accepts value h => exact hr value rfl h
  | rejects h placed => exact .rejects (mt hc h) placed

theorem Decides.map (h : Decides condition root read) (f : α → β) :
    Decides condition root (read.map f) := by
  cases h with
  | accepts value h => exact .accepts (f value) h
  | rejects h placed => exact .rejects h placed

theorem decides_mapM {γ : Type} {items : List γ} {P : γ → Prop} {f : γ → Except Fault α}
    (h : ∀ item ∈ items, Decides (P item) root (f item)) :
    Decides (∀ item ∈ items, P item) root (items.mapM f) := by
  induction items with
  | nil => exact .accepts [] fun _ hm => by cases hm
  | cons item rest ih =>
    rw [List.mapM_cons]
    refine (h item (List.mem_cons_self ..)).bind (fun hall => hall item (List.mem_cons_self ..)) ?_
    intro first hf hfirst
    refine (ih fun i hi => h i (List.mem_cons_of_mem _ hi)).bind
      (fun hall i hi => hall i (List.mem_cons_of_mem _ hi)) ?_
    intro others ho hothers
    exact .accepts _ (List.forall_mem_cons.mpr ⟨hfirst, hothers⟩)

end

section

variable {e : Element} {key : String}

theorem isFilled_iff {text : String} : IsFilled text ↔ (Text.trim text).isEmpty = false := by
  rw [← Bool.not_eq_true, Text.isEmpty_trim, IsFilled]
  simp

theorem isIdentifier_iff {text : String} : Text.isIdentifier text = true ↔ IsIdentifier text.toList := by
  rw [Text.isIdentifier]
  cases text.toList with
  | nil => exact iff_of_false nofun fun ⟨_, _, h, _⟩ => by cases h
  | cons c rest =>
    simp only [IsIdentifier, Text.isIdentifierStart, Text.isIdentifierRest, Bool.and_eq_true,
      Bool.or_eq_true, beq_iff_eq, List.all_eq_true]
    constructor
    · rintro ⟨hc, hr⟩
      exact ⟨c, rest, rfl, hc, hr⟩
    · rintro ⟨_, _, ⟨⟩, hc, hr⟩
      exact ⟨hc, hr⟩

theorem hasText_iff : HasText e ↔ e.text.isEmpty = false := by
  rw [Element.text, ← isFilled_iff, HasText, IsFilled, String.toList_join]
  simp only [IsFilled, List.mem_flatMap]
  constructor
  · rintro ⟨text, ht, c, hc, hb⟩
    exact ⟨c, ⟨text, ht, hc⟩, hb⟩
  · rintro ⟨c, ⟨text, ht, hc⟩, hb⟩
    exact ⟨text, ht, c, hc, hb⟩

theorem hasAttribute_iff {text : String} (hg : e.get? key = some text) :
    HasAttribute e key ↔ IsFilled text := by
  simp [HasAttribute, hg]

theorem hasIdentifier_iff {text : String} (hg : e.get? key = some text) :
    HasIdentifier e key ↔ IsIdentifier (Text.trim text).toList := by
  simp [HasIdentifier, hg]

theorem mayHaveType_iff {text : String} (hg : e.get? key = some text) :
    MayHaveType e key ↔ ∃ type, NamesType text type := by
  simp [MayHaveType, hg]

theorem HasIdentifier.hasAttribute (h : HasIdentifier e key) : HasAttribute e key := by
  obtain ⟨text, hg, c, rest, hcs, -⟩ := h
  refine ⟨text, hg, isFilled_iff.mpr (Bool.eq_false_iff.mpr fun hempty => ?_)⟩
  rw [String.isEmpty_iff.mp hempty] at hcs
  cases hcs

theorem require_decides (e : Element) (key : String) :
    Decides (HasAttribute e key) e (e.require key) := by
  rw [Element.require]
  cases hg : e.get? key with
  | none => exact decides_fault (fun ⟨_, h, _⟩ => by rw [hg] at h; cases h) (within_self e) _
  | some text =>
    rw [hasAttribute_iff hg, isFilled_iff, ← Bool.not_eq_true]
    dsimp only [Option.map_some]
    split
    · rename_i hempty
      exact decides_fault (fun h => h hempty) (within_self e) _
    · rename_i hempty
      exact .accepts _ hempty

/-- What is read of an attribute is its value without outer blanks. -/
theorem trim_of_require {value text : String} (h : e.require key = .ok value)
    (hg : e.get? key = some text) : value = Text.trim text := by
  rw [← Direct.trimmed_of_require h, Direct.trimmed, hg]
  rfl

theorem identifierOf_decides (e : Element) (key : String) :
    Decides (HasIdentifier e key) e (identifierOf e key) := by
  refine (require_decides e key).bind HasIdentifier.hasAttribute ?_
  rintro value hv ⟨text, hg, -⟩
  obtain rfl := trim_of_require hv hg
  rw [hasIdentifier_iff hg, ← isIdentifier_iff]
  split
  · rename_i hi
    exact .accepts _ hi
  · rename_i hi
    exact decides_fault hi (within_self e) _

theorem typeOf_ok_iff {text : String} {type : DataType} :
    typeOf e text = .ok type ↔ NamesType text type := by
  rw [← parse?_eq_some_iff, typeOf]
  cases DataType.parse? text with
  | none => exact iff_of_false nofun nofun
  | some found => rw [Except.ok.injEq, Option.some.injEq]

theorem typeOf_decides (e : Element) (text : String) :
    Decides (∃ type, NamesType text type) e (typeOf e text) := by
  simp only [← parse?_eq_some_iff, typeOf]
  cases DataType.parse? text with
  | none => exact decides_fault (fun ⟨_, h⟩ => by cases h) (within_self e) _
  | some type => exact .accepts _ ⟨type, rfl⟩

theorem typeOf?_decides (e : Element) (key : String) :
    Decides (MayHaveType e key) e (typeOf? e key) := by
  rw [typeOf?]
  cases hg : e.get? key with
  | none => exact .accepts _ fun text h => by rw [hg] at h; cases h
  | some text => exact ((typeOf_decides e text).map some).congr (mayHaveType_iff hg).symm

theorem isFilled_of_namesType {text : String} {type : DataType} (h : NamesType text type) :
    IsFilled text := by
  obtain ⟨name, hm, hs⟩ := h
  have hne : ∀ named ∈ DataType.names, named.1 ≠ "" := by decide
  refine isFilled_iff.mpr (Bool.eq_false_iff.mpr fun hempty => hne _ hm ?_)
  rw [String.isEmpty_iff.mp hempty, Text.sameName_iff_of_lower (lower_typeName _ hm)] at hs
  exact hs.symm

theorem parameter_decides (hn : e.name = "param") :
    Decides (IsParameter e) e (ScriptParameter.ofElement e) := by
  refine (identifierOf_decides e "name").bind IsParameter.named fun name _ hname => ?_
  have htype (h : IsParameter e) : HasAttribute e "type" := by
    obtain ⟨text, type, hg, ht, -⟩ := h.typed
    exact ⟨text, hg, isFilled_of_namesType ht⟩
  refine (require_decides e "type").bind htype ?_
  rintro written hw ⟨text, hg, -⟩
  obtain rfl := trim_of_require hw hg
  have hnames (h : IsParameter e) : ∃ type, NamesType (Text.trim text) type := by
    obtain ⟨other, type, ho, ht, -⟩ := h.typed
    cases hg.symm.trans ho
    exact ⟨type, namesType_trim.mpr ht⟩
  refine (typeOf_decides e (Text.trim text)).bind hnames fun type ht _ => ?_
  have hcondition : IsParameter e ↔
      ∀ default, e.get? "default" = some default → IsLiteral default type := by
    have htext := namesType_trim.mp (typeOf_ok_iff.mp ht)
    constructor
    · intro h
      obtain ⟨other, found, ho, hf, hd⟩ := h.typed
      cases hg.symm.trans ho
      exact hf.unique htext ▸ hd
    · exact fun hd => ⟨hn, hname, text, type, hg, htext, hd⟩
  rw [hcondition]
  cases hd : e.get? "default" with
  | none => exact .accepts _ fun _ h => by cases h
  | some default =>
    simp only [Option.some.injEq, forall_eq', ← literal?_isSome_iff]
    cases literal? type default with
    | none => exact decides_fault nofun (within_self e) _
    | some value => exact .accepts _ rfl

theorem argumentOf_decides (e : Element) : Decides (IsArgument e) e (argumentOf e) := by
  rw [argumentOf]
  split
  · rename_i hn
    exact decides_fault (fun h => bne_iff_ne.mp hn h.name) (within_self e) _
  · rename_i hn
    split
    · rename_i ht
      exact decides_fault (fun h => hasText_iff.not.mpr (by rw [ht]; decide) h.expression)
        (within_self e) _
    · rename_i ht
      exact .accepts _ ⟨by simpa using hn, hasText_iff.mpr (Bool.eq_false_iff.mpr ht)⟩

theorem command_decides (hn : e.name = "command") :
    Decides (IsCommand e) e (CommandUse.ofElement e) := by
  refine (identifierOf_decides e "name").bind IsCommand.command fun name _ hname => ?_
  -- Both ways of reading the slot of the result go on in the same way.
  have hrest (hresult : (e.get? "into").isSome = true → HasIdentifier e "into")
      (result : Option String) :
      Decides (IsCommand e) e (do
        let expect ← typeOf? e "as"
        return (⟨name, ← e.elements.mapM argumentOf, result, expect⟩ : CommandUse)) := by
    refine (typeOf?_decides e "as").bind IsCommand.expect fun expect _ hexpect => ?_
    have harguments : Decides (∀ a ∈ e.elements, IsArgument a) e (e.elements.mapM argumentOf) :=
      decides_mapM fun a ha => (argumentOf_decides a).within ((within_self e).child ha)
    refine harguments.bind IsCommand.arguments fun arguments _ harguments => ?_
    exact .accepts _ ⟨hn, hname, hresult, hexpect, harguments⟩
  dsimp only
  split
  · rename_i hinto
    refine ((identifierOf_decides e "into").map some).bind (fun h => h.result hinto) ?_
    exact fun result _ hresult => hrest (fun _ => hresult) result
  · rename_i hinto
    exact hrest (fun h => absurd h hinto) none

theorem assignmentOf_decides (hn : e.name = "set") :
    Decides (IsAssignment e) e (Statement.assignmentOf e) := by
  refine (identifierOf_decides e "name").bind IsAssignment.target fun target _ htarget => ?_
  split
  · rename_i hempty
    exact decides_fault (fun h => hasText_iff.not.mpr (by rw [hempty]; decide) h.expression)
      (within_self e) _
  · rename_i hempty
    exact .accepts _ ⟨hn, htarget, hasText_iff.mpr (Bool.eq_false_iff.mpr hempty)⟩

end

end ScriptEngine.Grammar
