import Mathlib.Data.List.Forall2
import ScriptEngine.Proofs.Dictionary
import ScriptEngine.Proofs.Direct.Interpretation
import ScriptEngine.Proofs.Except

/-!
# What is read is what is written

Reading a script checks it and gives statements. `Describes` says that a statement has the shape of an
element, and its parts those of the children. `ofElement_describes` shows this of every element that can
be read, `Declaration.describes` of whole scripts, and `parseAll_find` ties the scripts that an engine
finds by their names to the documents that the interpretation finds.
-/

namespace ScriptEngine.Direct

open Markup (Element Node)

theorem trimmed_of_require {e : Element} {key value : String} (h : e.require key = .ok value) :
    trimmed e key = value := by
  unfold Element.require at h
  cases hg : e.get? key with
  | none => simp [hg] at h
  | some text =>
    simp only [hg, Option.map_some] at h
    split at h
    · cases h
    · rw [trimmed, hg]
      exact Except.ok.inj h

theorem trimmed_of_identifier {e : Element} {key value : String}
    (h : identifierOf e key = .ok value) : trimmed e key = value := by
  obtain ⟨found, hr, h⟩ := ok_of_bind h
  split at h
  · rw [trimmed_of_require hr]
    exact Except.ok.inj h
  · cases h

theorem type_of_typeOf? {e : Element} {key : String} {type : Option DataType}
    (h : typeOf? e key = .ok type) : (e.get? key).bind DataType.parse? = type := by
  unfold typeOf? typeOf at h
  cases hg : e.get? key with
  | none => rw [hg] at h; exact Except.ok.inj h
  | some text =>
    simp only [hg] at h
    cases hp : DataType.parse? text with
    | none => simp [hp, Except.map] at h
    | some found =>
      simp only [hp, Except.map, Except.ok.injEq] at h
      rw [← h, Option.bind_some, hp]

theorem texts_of_arguments {elements : List Element} {arguments : List String}
    (h : elements.mapM argumentOf = .ok arguments) : elements.map (·.text) = arguments := by
  induction elements generalizing arguments with
  | nil => exact Except.ok.inj h
  | cons e rest ih =>
    rw [List.mapM_cons] at h
    obtain ⟨first, hf, h⟩ := ok_of_bind h
    obtain ⟨others, ho, h⟩ := ok_of_bind h
    have hfirst : e.text = first := by
      unfold argumentOf at hf
      split at hf
      · cases hf
      · split at hf
        · cases hf
        · exact Except.ok.inj hf
    rw [List.map_cons, hfirst, ih ho]
    exact Except.ok.inj h

theorem useOf_of_ofElement {e : Element} {use : CommandUse} (h : CommandUse.ofElement e = .ok use) :
    useOf e = use := by
  obtain ⟨name, hn, h⟩ := ok_of_bind h
  -- Both ways of reading the result go on in the same way.
  have hrest : ∃ result, (e.get? "into").map Text.trim = result ∧
      (do let expect ← typeOf? e "as"
          return (⟨name, ← e.elements.mapM argumentOf, result, expect⟩ : CommandUse)) = .ok use := by
    cases hg : e.get? "into" with
    | none =>
      simp only [hg, Option.isSome_none, Bool.false_eq_true, if_false] at h
      exact ⟨none, rfl, h⟩
    | some text =>
      simp only [hg, Option.isSome_some, if_true] at h
      obtain ⟨result, hr, h⟩ := ok_of_bind h
      cases hs : identifierOf e "into" with
      | error fault => simp [hs, Functor.map, Except.map] at hr
      | ok slot =>
        have ht := trimmed_of_identifier hs
        rw [trimmed, hg] at ht
        simp only [hs, Functor.map, Except.map, Except.ok.injEq] at hr
        exact ⟨result, by rw [← hr, ← ht]; rfl, h⟩
  obtain ⟨result, hr, h⟩ := hrest
  obtain ⟨expect, hx, h⟩ := ok_of_bind h
  obtain ⟨arguments, ha, h⟩ := ok_of_bind h
  rw [useOf, trimmed_of_identifier hn, texts_of_arguments ha, hr, type_of_typeOf? hx]
  exact Except.ok.inj h

/-- What is read of a parameter: no default if none is written, and else the value of the literal. -/
theorem default_of_ofElement {e : Element} {p : ScriptParameter}
    (h : ScriptParameter.ofElement e = .ok p) :
    p.span = e.span ∧ ((e.get? "default" = none ∧ p.default = none) ∨
      ∃ text value, e.get? "default" = some text ∧ literal? p.dataType text = some value ∧
        p.default = some value) := by
  obtain ⟨name, -, h⟩ := ok_of_bind h
  obtain ⟨text, -, h⟩ := ok_of_bind h
  obtain ⟨type, -, h⟩ := ok_of_bind h
  split at h
  · rename_i hd
    cases h
    exact ⟨rfl, .inl ⟨hd, rfl⟩⟩
  · rename_i default hd
    split at h
    · rename_i value hl
      cases h
      exact ⟨rfl, .inr ⟨default, value, hd, hl, rfl⟩⟩
    · cases h

/-! ## Statements -/

/-- A statement has the shape of an element, and its parts have those of the children. -/
inductive Describes : Statement → Element → Prop
  | assign {e : Element} {target expression : String} (shaped : shape e = .assign target expression) :
      Describes (.assign target expression e.span) e
  | command {e : Element} {use : CommandUse} (shaped : shape e = .command use) :
      Describes (.command use e.span) e
  | loop {e : Element} {condition : String} {body : List Element} {statements : List Statement}
      (shaped : shape e = .loop condition body) (inside : List.Forall₂ Describes statements body) :
      Describes (.loop condition statements e.span) e
  | guarded {e : Element} {condition : String} {body : List Element} {statements : List Statement}
      (shaped : shape e = .choice condition body [])
      (inside : List.Forall₂ Describes statements body) :
      Describes (.guarded condition statements e.span) e
  | choice {e : Element} {condition : String} {body otherwise : List Element}
      {statements alternatives : List Statement} {elseSpan : Span}
      (shaped : shape e = .choice condition body otherwise)
      (inside : List.Forall₂ Describes statements body)
      (beside : List.Forall₂ Describes alternatives otherwise) :
      Describes (.choice condition statements elseSpan alternatives e.span) e

theorem assign_describes {e : Element} {statement : Statement} (hn : e.name = "set")
    (h : Statement.assignmentOf e = .ok statement) : Describes statement e := by
  obtain ⟨target, ht, h⟩ := ok_of_bind h
  split at h
  · cases h
  · rw [← Except.ok.inj h]
    refine .assign ?_
    simp only [shape, hn, trimmed_of_identifier ht]

/-- The elements that are read as the statements of a block. -/
def blockOf (skipElse : Bool) (nodes : List Node) : List Element :=
  (nodes.filterMap Node.element?).filter fun e => !(skipElse && isElse e)

theorem blockOf_false (nodes : List Node) :
    blockOf false nodes = nodes.filterMap Node.element? :=
  List.filter_eq_self.mpr fun _ _ => rfl

theorem elseBlocks_elements (nodes : List Node) :
    (Statement.elseBlocks nodes).map (·.1) = (nodes.filterMap Node.element?).filter isElse := by
  induction nodes with
  | nil => rw [Statement.elseBlocks]; rfl
  | cons node rest ih =>
    match node with
    | .text .. => rw [Statement.elseBlocks, ih]; rfl
    | .element (.mk name attributes children span) =>
      rw [Statement.elseBlocks]
      by_cases hn : isElse (.mk name attributes children span) = true
      · rw [if_pos (show (name == "else") = true from hn), List.map_cons, ih]
        exact (List.filter_cons_of_pos hn).symm
      · rw [if_neg (show ¬ (name == "else") = true from hn), ih]
        exact (List.filter_cons_of_neg hn).symm

/-- The choice that is read has the shape of the element, if its blocks are described. -/
theorem choice_describes {e : Element} {condition : String} {statements : List Statement}
    {statement : Statement} {elses : List (Element × Except Fault (List Statement))}
    (hn : e.name = "if") (hc : trimmed e "when" = condition)
    (hb : List.Forall₂ Describes statements (blockOf true e.children))
    (he : elses.map (·.1) = e.elements.filter isElse)
    (hd : ∀ block alternatives, (block, .ok alternatives) ∈ elses →
      List.Forall₂ Describes alternatives block.elements)
    (h : Statement.choiceOf condition statements e.span elses = .ok statement) :
    Describes statement e := by
  have hs : shape e = .choice condition (blockOf true e.children)
      ((elses.map (·.1)).head?.elim [] (·.elements)) := by
    simp only [shape, hn, hc, he, List.head?_filter, blockOf, Bool.true_and]
    rfl
  unfold Statement.choiceOf at h
  split at h
  · rw [← Except.ok.inj h]
    exact .guarded hs hb
  · rename_i block read
    cases read with
    | error fault => cases h
    | ok alternatives =>
      rw [← Except.ok.inj h]
      exact .choice hs hb (hd block alternatives (List.mem_singleton_self _))
  · cases h

mutual

/-- An element that can be read is described by what is read. -/
theorem ofElement_describes (e : Element) {statement : Statement}
    (h : Statement.ofElement e = .ok statement) : Describes statement e := by
  match e with
  | .mk name attributes children span =>
    unfold Statement.ofElement at h
    split at h
    · exact assign_describes rfl h
    · obtain ⟨use, hu, h⟩ := ok_of_bind h
      rw [← Except.ok.inj h, ← useOf_of_ofElement hu]
      exact @Describes.command (.mk "command" attributes children span) _ rfl
    · obtain ⟨condition, hc, h⟩ := ok_of_bind h
      obtain ⟨statements, hs, h⟩ := ok_of_bind h
      have hb := ofNodes_describes false children hs
      rw [blockOf_false] at hb
      rw [← Except.ok.inj h, ← trimmed_of_require hc]
      exact @Describes.loop (.mk "while" attributes children span) _ _ _ rfl hb
    · obtain ⟨condition, hc, h⟩ := ok_of_bind h
      obtain ⟨statements, hs, h⟩ := ok_of_bind h
      exact choice_describes rfl (trimmed_of_require hc) (ofNodes_describes true children hs)
        (elseBlocks_elements children) (fun _ _ hm => elseBlocks_describe children hm) h
    · cases h
    · cases h
    · cases h

theorem ofNodes_describes (skipElse : Bool) (nodes : List Node) {statements : List Statement}
    (h : Statement.ofNodes skipElse nodes = .ok statements) :
    List.Forall₂ Describes statements (blockOf skipElse nodes) := by
  match nodes with
  | [] =>
    rw [Statement.ofNodes] at h
    rw [← Except.ok.inj h]
    exact .nil
  | .text .. :: rest =>
    rw [Statement.ofNodes] at h
    exact ofNodes_describes skipElse rest h
  | .element e :: rest =>
    rw [Statement.ofNodes] at h
    by_cases hs : (skipElse && e.name == "else") = true
    · rw [if_pos hs] at h
      have hk : blockOf skipElse (.element e :: rest) = blockOf skipElse rest :=
        List.filter_cons_of_neg (by rw [isElse, hs]; decide)
      rw [hk]
      exact ofNodes_describes skipElse rest h
    · rw [if_neg hs] at h
      obtain ⟨statement, he, h⟩ := ok_of_bind h
      obtain ⟨others, ho, h⟩ := ok_of_bind h
      have hk : blockOf skipElse (.element e :: rest) = e :: blockOf skipElse rest :=
        List.filter_cons_of_pos (by rw [isElse, Bool.eq_false_iff.mpr hs]; rfl)
      rw [← Except.ok.inj h, hk]
      exact .cons (ofElement_describes e he) (ofNodes_describes skipElse rest ho)

theorem elseBlocks_describe (nodes : List Node) {e : Element} {statements : List Statement}
    (h : (e, .ok statements) ∈ Statement.elseBlocks nodes) :
    List.Forall₂ Describes statements e.elements := by
  match nodes with
  | [] => rw [Statement.elseBlocks] at h; cases h
  | .text .. :: rest =>
    rw [Statement.elseBlocks] at h
    exact elseBlocks_describe rest h
  | .element (.mk name attributes children span) :: rest =>
    rw [Statement.elseBlocks] at h
    split at h
    · rcases List.mem_cons.mp h with h | h
      · obtain ⟨rfl, hb⟩ := Prod.mk.inj h
        have hd := ofNodes_describes false children hb.symm
        rwa [blockOf_false] at hd
      · exact elseBlocks_describe rest h
    · exact elseBlocks_describe rest h

end

/-! ## Scripts -/

/-- A declaration says what a document says. -/
structure Declares (declaration : Declaration) (document : Document) : Prop where
  name : declaration.name = document.name
  parameters : declaration.parameters = document.parameters
  returnType : declaration.returnType = document.returnType
  body : List.Forall₂ Describes declaration.body document.body

/-- One more child of a script: a parameter or a statement. -/
theorem add_describes {before after : ScriptBody} {e : Element}
    (h : before.add e = .ok after) :
    (Document.isParameter e = true ∧ ∃ parameter, ScriptParameter.ofElement e = .ok parameter ∧
      after = { before with parameters := before.parameters ++ [parameter] }) ∨
    (Document.isParameter e = false ∧ ∃ statement, Describes statement e ∧
      after = { before with statements := before.statements ++ [statement] }) := by
  unfold ScriptBody.add at h
  split at h
  · rename_i hp
    split at h
    · obtain ⟨parameter, hr, h⟩ := ok_of_bind h
      exact .inl ⟨hp, parameter, hr, (Except.ok.inj h).symm⟩
    · cases h
  · rename_i hp
    obtain ⟨statement, hr, h⟩ := ok_of_bind h
    exact .inr ⟨Bool.eq_false_iff.mpr hp, statement, ofElement_describes e hr,
      (Except.ok.inj h).symm⟩

theorem children_describe {elements read : List Element} {before after : ScriptBody}
    (hd : List.Forall₂ Describes before.statements read)
    (h : elements.foldlM ScriptBody.add before = .ok after) :
    after.parameters = before.parameters ++ (elements.filter Document.isParameter).filterMap
      (fun e => (ScriptParameter.ofElement e).toOption) ∧
    List.Forall₂ Describes after.statements
      (read ++ elements.filter (!Document.isParameter ·)) := by
  induction elements generalizing before read with
  | nil =>
    rw [← Except.ok.inj h, List.filter_nil, List.filter_nil, List.filterMap_nil, List.append_nil,
      List.append_nil]
    exact ⟨rfl, hd⟩
  | cons e rest ih =>
    rw [List.foldlM_cons] at h
    obtain ⟨next, hn, h⟩ := ok_of_bind h
    rcases add_describes hn with ⟨hp, parameter, hr, rfl⟩ | ⟨hp, statement, hs, rfl⟩
    · obtain ⟨h₁, h₂⟩ := @ih read ⟨before.parameters ++ [parameter], before.statements⟩ hd h
      rw [List.filter_cons_of_pos hp, List.filter_cons_of_neg (by rw [hp]; decide), h₁,
        List.filterMap_cons, hr, List.append_assoc]
      exact ⟨rfl, h₂⟩
    · obtain ⟨h₁, h₂⟩ := @ih (read ++ [e]) ⟨before.parameters, before.statements ++ [statement]⟩
        (List.rel_append hd (.cons hs .nil)) h
      rw [List.filter_cons_of_neg (by rw [hp]; decide), List.filter_cons_of_pos (by rw [hp]; rfl)]
      rw [List.append_assoc] at h₂
      exact ⟨h₁, h₂⟩

theorem declares_of_ofElement {path : String} {root : Element} {declaration : Declaration}
    (h : Declaration.ofElement path root = .ok declaration) :
    Declares declaration (.ofElement root) := by
  unfold Declaration.ofElement at h
  split at h
  · cases h
  · obtain ⟨name, hn, h⟩ := ok_of_bind h
    obtain ⟨returnType, ht, h⟩ := ok_of_bind h
    obtain ⟨body, hb, h⟩ := ok_of_bind h
    have hc := children_describe .nil hb
    split at h
    · cases h
    · rw [← Except.ok.inj h]
      exact ⟨(trimmed_of_identifier hn).symm, hc.1, by rw [← type_of_typeOf? ht]; rfl, hc.2⟩

/-- The declarations and the documents of a name agree. -/
def Agree (known : Dictionary Declaration) (documents : List Document) : Prop :=
  ∀ name, Option.Rel Declares (known.get? name) (documents.find? (·.name == name))

/-- One more script, whose name is new. -/
theorem Agree.insert {known : Dictionary Declaration} {documents : List Document}
    (h : Agree known documents) {declaration : Declaration} {document : Document}
    (hd : Declares declaration document) (hn : known.get? declaration.name = none) :
    Agree (known.insert declaration.name declaration) (documents ++ [document]) := by
  intro name
  rw [List.find?_append, List.find?_singleton]
  by_cases he : name = declaration.name
  · subst he
    have hr := h declaration.name
    rw [hn] at hr
    cases hf : documents.find? (·.name == declaration.name) with
    | some found => rw [hf] at hr; cases hr
    | none =>
      rw [Dictionary.get?_insert_self, hd.name, beq_self_eq_true]
      exact .some hd
  · have hne : ¬ (document.name == name) = true := by
      rw [beq_iff_eq, ← hd.name]
      exact fun he' => he he'.symm
    rw [Dictionary.get?_insert_other _ he, if_neg hne, Option.or_none]
    exact h name

theorem addDeclaration_ok {known after : Dictionary Declaration} {path source : String}
    (h : addDeclaration known path source = .ok after) :
    ∃ root declaration, Markup.parse source = .ok root ∧
      Declares declaration (.ofElement root) ∧ known.get? declaration.name = none ∧
      after = known.insert declaration.name declaration := by
  obtain ⟨declaration, hp, h⟩ := ok_of_bind h
  obtain ⟨root, hr, hp⟩ := ok_of_bind hp
  split at h
  · cases h
  · rename_i hn
    exact ⟨root, declaration, hr, declares_of_ofElement hp, hn, (Except.ok.inj h).symm⟩

theorem Agree.addAll {files : List (String × String)} {known after : Dictionary Declaration}
    {documents : List Document} (ha : Agree known documents)
    (h : files.foldlM (fun known file => addDeclaration known file.1 file.2) known = .ok after) :
    Agree after (documents ++ files.filterMap fun file =>
      (Markup.parse file.2).toOption.map .ofElement) := by
  induction files generalizing known documents with
  | nil =>
    rw [← Except.ok.inj h, List.filterMap_nil, List.append_nil]
    exact ha
  | cons file rest ih =>
    rw [List.foldlM_cons] at h
    obtain ⟨next, hn, h⟩ := ok_of_bind h
    obtain ⟨root, declaration, hr, hd, hk, rfl⟩ := addDeclaration_ok hn
    have hall := ih (ha.insert hd hk) h
    rw [List.append_assoc, List.singleton_append] at hall
    rw [List.filterMap_cons, hr]
    exact hall

/-- A script holds the instructions of a document. -/
def Compiled (script : Script) (document : Document) : Prop :=
  ∃ declaration, Declares declaration document ∧ script = declaration.toScript

/-- A machine has what a program has, with the scripts as instructions. -/
structure Loads (machine : Machine) (program : Program) : Prop where
  commands : machine.commands = program.commands
  evaluate : machine.evaluate = program.evaluate
  depthLimit : machine.depthLimit = program.depthLimit
  scripts (name : String) :
    Option.Rel Compiled (machine.scripts.get? name) (program.find? name)

/-- An engine that was built from files has what the program of these files has. -/
theorem loads_of_ofSources {files : Dictionary String} {options : EngineOptions} {engine : Engine}
    (h : Engine.ofSources files options = .ok engine) :
    Loads engine.machine (.ofSources files options) := by
  obtain ⟨scripts, hs, h⟩ := ok_of_bind h
  unfold Engine.build at h
  split at h
  · cases h
  rw [← Except.ok.inj h]
  refine ⟨rfl, rfl, rfl, fun name => ?_⟩
  unfold Script.parseAll at hs
  cases hk : Declaration.parseAll files with
  | error fault => rw [hk] at hs; cases hs
  | ok known =>
    rw [hk] at hs
    have ha : Agree known (documents files) :=
      @Agree.addAll _ _ _ [] (fun _ => .none) hk
    have hm : scripts.get? name = (known.get? name).map (·.toScript) := by
      rw [← Except.ok.inj hs, Dictionary.get?_map]
    have hr := ha name
    show Option.Rel Compiled (scripts.get? name) ((documents files).find? (·.name == name))
    rw [hm]
    generalize known.get? name = declared at hr ⊢
    generalize (documents files).find? (·.name == name) = found at hr ⊢
    cases hr with
    | none => exact .none
    | some hd => exact .some ⟨_, hd, rfl⟩

end ScriptEngine.Direct
