import ScriptEngine.Proofs.Markup.Text
import ScriptEngine.Proofs.Script.Acceptance

/-!
# The expressions of a script

The expressions of assignments and of arguments are texts of elements. `Spelled` says which element holds
the expressions of an instruction, and `parse_spelled` shows this of every instruction of a script that was
read, from what is shown of one statement after the other (`lower_spelled`).
`text_is_filled_character_data` goes down to the source: it says what such a text keeps of what is written
between the tags of its element, and when it keeps all of it.
-/

namespace ScriptEngine

open Direct (Describes Document shape isElse blockOf)
open Grammar (Within IsInstruction IsScript)
open Markup (Element)

/-- An element of a tree holds the expressions of an instruction. Instructions that only lead the way have
conditions, which are attributes, but no such expressions. -/
inductive Spelled (root : Element) : Instruction → Prop
  | assign {e : Element} {target : String} (within : Within e root) (named : e.name = "set") :
      Spelled root ⟨.assign target e.text, e.span⟩
  | command {e : Element} {use : CommandUse} (within : Within e root) (named : e.name = "command")
      (arguments : ∀ a ∈ e.elements, a.name = "arg")
      (expressions : use.arguments = e.elements.map (·.text)) : Spelled root ⟨.command use, e.span⟩
  | leads {operation : Operation} {span : Span}
      (assigns : ∀ target expression, operation ≠ .assign target expression)
      (commands : ∀ use, operation ≠ .command use) : Spelled root ⟨operation, span⟩

theorem Spelled.within {e root : Element} {i : Instruction} (h : Spelled e i) (hw : Within e root) :
    Spelled root i := by
  cases h with
  | assign within named => exact .assign (within.trans hw) named
  | command within named arguments expressions =>
    exact .command (within.trans hw) named arguments expressions
  | leads assigns commands => exact .leads assigns commands

section

variable {e : Element}

theorem assign_of_shape {target expression : String} (h : shape e = .assign target expression) :
    e.name = "set" ∧ expression = e.text := by
  unfold shape at h
  split at h <;> cases h
  exact ⟨‹_›, rfl⟩

theorem command_of_shape {use : CommandUse} (h : shape e = .command use) :
    e.name = "command" ∧ use = Direct.useOf e := by
  unfold shape at h
  split at h <;> cases h
  exact ⟨‹_›, rfl⟩

theorem loop_of_shape {condition : String} {body : List Element} (h : shape e = .loop condition body) :
    e.name = "while" ∧ body = e.elements := by
  unfold shape at h
  split at h <;> cases h
  exact ⟨‹_›, rfl⟩

theorem choice_of_shape {condition : String} {body otherwise : List Element}
    (h : shape e = .choice condition body otherwise) :
    e.name = "if" ∧ body = blockOf true e.children ∧
      otherwise = (e.elements.find? isElse).elim [] (·.elements) := by
  unfold shape at h
  split at h <;> cases h
  exact ⟨‹_›, rfl, rfl⟩

end

mutual

/-- The instructions of a statement. -/
theorem lower_spelled (start : Nat) (statement : Statement) {e : Element} {i : Instruction}
    (hd : Describes statement e) (hi : IsInstruction e) (hm : i ∈ statement.lower start) : Spelled e i := by
  match statement with
  | .assign target expression span =>
    obtain rfl := List.mem_singleton.mp hm
    cases hd with
    | assign shaped =>
      obtain ⟨hn, rfl⟩ := assign_of_shape shaped
      exact .assign .refl hn
  | .command use span =>
    obtain rfl := List.mem_singleton.mp hm
    cases hd with
    | command shaped =>
      obtain ⟨hn, rfl⟩ := command_of_shape shaped
      have hc := (Grammar.isInstruction_command hn).mp hi
      exact .command .refl hn (fun a ha => (hc.arguments a ha).name) rfl
  | .loop condition body span =>
    cases hd with
    | loop shaped inside =>
      obtain ⟨hn, rfl⟩ := loop_of_shape shaped
      have hbody := ((Grammar.isInstruction_loop hn).mp hi).2
      rcases List.mem_cons.mp hm with rfl | hm
      · exact .leads nofun nofun
      · rcases List.mem_append.mp hm with hm | hm
        · obtain ⟨inner, hin, hs⟩ := lowerAll_spelled (start + 1) body inside hbody hm
          exact hs.within (.single hin)
        · obtain rfl := List.mem_singleton.mp hm
          exact .leads nofun nofun
  | .guarded condition body span =>
    cases hd with
    | guarded shaped inside =>
      obtain ⟨hn, rfl, -⟩ := choice_of_shape shaped
      have hbody := ((Grammar.isInstruction_choice hn).mp hi).2.1
      rcases List.mem_cons.mp hm with rfl | hm
      · exact .leads nofun nofun
      · obtain ⟨inner, hin, hs⟩ := lowerAll_spelled (start + 1) body inside hbody hm
        exact hs.within (.single (Grammar.mem_blockOf_true.mp hin).1)
  | .choice condition body elseSpan otherwise span =>
    cases hd with
    | choice shaped inside beside =>
      obtain ⟨hn, rfl, rfl⟩ := choice_of_shape shaped
      obtain ⟨-, hbody, -, helse⟩ := (Grammar.isInstruction_choice hn).mp hi
      rcases List.mem_append.mp hm with hm | hm
      · rcases List.mem_cons.mp hm with rfl | hm
        · exact .leads nofun nofun
        · obtain ⟨inner, hin, hs⟩ := lowerAll_spelled (start + 1) body inside hbody hm
          exact hs.within (.single (Grammar.mem_blockOf_true.mp hin).1)
      · rcases List.mem_cons.mp hm with rfl | hm
        · exact .leads nofun nofun
        · cases hf : e.elements.find? isElse with
          | none =>
            rw [hf] at beside
            cases beside
            cases hm
          | some block =>
            rw [hf] at beside
            have hblock : block ∈ e.elements := List.mem_of_find?_eq_some hf
            have hisElse : isElse block = true := List.find?_some hf
            have hname : block.name = "else" := beq_iff_eq.mp hisElse
            obtain ⟨inner, hin, hs⟩ := lowerAll_spelled _ otherwise beside (helse block hblock hname) hm
            exact hs.within (.head hin (.single hblock))

/-- The instructions of statements. -/
theorem lowerAll_spelled (start : Nat) (body : List Statement) {elements : List Element} {i : Instruction}
    (hd : List.Forall₂ Describes body elements) (hi : ∀ e ∈ elements, IsInstruction e)
    (hm : i ∈ Statement.lowerAll start body) : ∃ e ∈ elements, Spelled e i := by
  match body with
  | [] => cases hm
  | statement :: rest =>
    cases hd with
    | @cons _ e _ others hs hr =>
      rw [List.forall_mem_cons] at hi
      rcases List.mem_append.mp hm with hm | hm
      · exact ⟨e, List.mem_cons_self .., lower_spelled start statement hs hi.1 hm⟩
      · obtain ⟨other, ho, hspelled⟩ := lowerAll_spelled _ rest hr hi.2 hm
        exact ⟨other, List.mem_cons_of_mem _ ho, hspelled⟩

end

/-- The instructions of a script that was read. -/
theorem parse_spelled {path source : String} {root : Element} {script : Script}
    (hr : Markup.parse source = .ok root) (h : Script.parse path source = .ok script) :
    ∀ i ∈ script.instructions, Spelled root i := by
  obtain ⟨declaration, hd, rfl⟩ := ok_of_map h
  rw [Declaration.parse, hr] at hd
  have hbody := (Direct.declares_of_ofElement hd).body
  have hscript : IsScript root := (Grammar.declaration_decides path root).ok_iff.mp ⟨declaration, hd⟩
  obtain ⟨parameters, instructions, hs, hp, -, hi⟩ := hscript.inside
  -- What is no parameter is an instruction.
  have hinstructions : ∀ e ∈ (Document.ofElement root).body, e ∈ root.elements ∧ IsInstruction e := by
    intro e he
    obtain ⟨hm, hn⟩ := List.mem_filter.mp he
    refine ⟨hm, ?_⟩
    rw [hs] at hm
    rcases List.mem_append.mp hm with hm | hm
    · rw [Document.isParameter, (hp e hm).name] at hn
      exact absurd hn (by decide)
    · exact hi e hm
  intro i hm
  obtain ⟨e, he, hspelled⟩ :=
    lowerAll_spelled 0 declaration.body hbody (fun e he => (hinstructions e he).2) hm
  exact hspelled.within (.single (hinstructions e he).1)

/-! ## The source -/

/-- The text of an element is what is written. For every document that can be read and every element of it,
the text of the element joins, in the order of the source, the stretches of character data that stand
directly between its tags and are not blank, without the blanks at both ends; a comment, a processing
instruction or an element inside ends a stretch. It is all the character data there, without the blanks at
both ends, exactly if no blank stretch stands between two others. If the document is a script, the
expressions of its assignments and arguments are such texts. -/
theorem text_is_filled_character_data {source : String} {root : Element}
    (h : Markup.parse source = .ok root) :
    ∃ tokens, Markup.tokens? source = some tokens ∧
      (∀ e, Within e root → ∃ inner, Markup.Encloses tokens e inner ∧
        e.text = Text.trim (Markup.joinFilled (Markup.stretchesOf inner)) ∧
        (e.text = Text.trim (Markup.dataOf inner) ↔ Markup.NoGapBetween (Markup.stretchesOf inner))) ∧
      ∀ path script, Script.parse path source = .ok script → ∀ i ∈ script.instructions, Spelled root i := by
  obtain ⟨tokens, ht, htexts⟩ := Markup.parse_texts h
  refine ⟨tokens, ht, fun e he => ?_, fun path script hs => parse_spelled h hs⟩
  obtain ⟨inner, hi, htext⟩ := htexts e he
  refine ⟨inner, hi, htext, ?_⟩
  rw [htext, ← Markup.join_stretchesOf]
  exact Markup.trim_join_filled_iff _

/-- A body in four stretches, one of them blank and one with data that is taken as it is. -/
def sumSource : String :=
  "<script name=\"main\"><set name=\"x\"> 1 <!-- one --> + <?step two?> <note>2</note> <![CDATA[3 ]]></set>" ++
    "</script>"

theorem sum_text_is_filled : ∃ root tokens, Markup.parse sumSource = .ok root ∧
    Markup.tokens? sumSource = some tokens ∧ root.elements.map (·.text) = ["1  +  3"] ∧
    ∀ e ∈ root.elements, ∃ inner, Markup.Encloses tokens e inner ∧
      e.text = Text.trim (Markup.joinFilled (Markup.stretchesOf inner)) := by
  have htexts : (Markup.parse sumSource).toOption.map (fun root => root.elements.map (·.text)) =
      some ["1  +  3"] := by
    decide +kernel
  obtain ⟨root, hp, hroot⟩ := ok_of_toOption_map htexts
  obtain ⟨tokens, ht, hall, -⟩ := text_is_filled_character_data hp
  refine ⟨root, tokens, hp, ht, hroot, fun e he => ?_⟩
  obtain ⟨inner, hi, htext, -⟩ := hall e (.single he)
  exact ⟨inner, hi, htext⟩

/-- A blank between two comments, inside a text in quotes. -/
def quotedSource : String :=
  "<arg>\"a<!--x--> <!--y-->b\"</arg>"

/-- The blank stands between two stretches that are not blank, and it is lost. -/
theorem blank_between_comments_is_lost : ∃ root tokens inner, Markup.parse quotedSource = .ok root ∧
    Markup.tokens? quotedSource = some tokens ∧ Markup.Encloses tokens root inner ∧
    Markup.dataOf inner = "\"a b\"" ∧ root.text = "\"ab\"" ∧ root.text ≠ Text.trim (Markup.dataOf inner) := by
  have htokens : Markup.tokens? quotedSource = some ([] ++
      (.opening ⟨"", "arg"⟩ [] false, ⟨⟨1, 1⟩, ⟨1, 6⟩⟩) ::
        ([(.text ['"', 'a'], ⟨⟨1, 6⟩, ⟨1, 8⟩⟩), (.remark, ⟨⟨1, 8⟩, ⟨1, 16⟩⟩),
          (.text [' '], ⟨⟨1, 16⟩, ⟨1, 17⟩⟩), (.remark, ⟨⟨1, 17⟩, ⟨1, 25⟩⟩),
          (.text ['b', '"'], ⟨⟨1, 25⟩, ⟨1, 27⟩⟩)] ++
          [(.closing ⟨"", "arg"⟩, ⟨⟨1, 27⟩, ⟨1, 33⟩⟩)])) := by
    decide +kernel
  have hroot : (Markup.parse quotedSource).toOption.map (fun root => (root.name, root.span, root.text)) =
      some ("arg", ⟨⟨1, 1⟩, ⟨1, 33⟩⟩, "\"ab\"") := by
    decide +kernel
  obtain ⟨root, hp, hparts⟩ := ok_of_toOption_map hroot
  obtain ⟨hn, hparts⟩ := Prod.mk.inj hparts
  obtain ⟨hs, ht⟩ := Prod.mk.inj hparts
  refine ⟨root, _, _, hp, htokens, .pair rfl hn hs, by decide +kernel, ht, ?_⟩
  rw [ht]
  decide +kernel

end ScriptEngine
