import ScriptEngine.Proofs.Script.Grammar

/-!
# Which scripts are accepted

Reading an instruction decides whether it is one, by recursion over the tree in the way of the readers:
the children of a choice are gone through once for its body, without `<else>`, and once for the `<else>`
blocks (`ofElement_decides`). Reading the children of a script one after the other decides whether they are
parameters with instructions behind them (`body_decides`), and with the order of the parameters this
decides whether there is a script (`declaration_decides`). `reading_accepts_the_grammar` is what this means
for source texts.
-/

namespace ScriptEngine.Grammar

open Markup (Element Node)
open Direct (isElse blockOf blockOf_false elseBlocks_elements)

section

variable {e : Element}

theorem mem_blockOf_true {nodes : List Node} {i : Element} :
    i ∈ blockOf true nodes ↔ i ∈ nodes.filterMap Node.element? ∧ i.name ≠ "else" := by
  rw [blockOf, List.mem_filter, Bool.true_and, isElse, Bool.not_eq_true', beq_eq_false_iff_ne]

theorem isInstruction_iff : IsInstruction e ↔ IsAssignment e ∨ IsCommand e ∨
    (e.name = "while" ∧ HasAttribute e "when" ∧ ∀ i ∈ e.elements, IsInstruction i) ∨
    e.name = "if" ∧ HasAttribute e "when" ∧ (∀ i ∈ blockOf true e.children, IsInstruction i) ∧
      e.elements.countP (·.name = "else") ≤ 1 ∧
      ∀ b ∈ e.elements, b.name = "else" → ∀ i ∈ b.elements, IsInstruction i := by
  simp only [mem_blockOf_true]
  constructor
  · intro h
    cases h with
    | set assignment => exact .inl assignment
    | command command => exact .inr (.inl command)
    | loop name condition body => exact .inr (.inr (.inl ⟨name, condition, body⟩))
    | choice name condition atMostOne body otherwise =>
      exact .inr (.inr (.inr ⟨name, condition, fun i hi => body i hi.1 hi.2, atMostOne, otherwise⟩))
  · rintro (assignment | command | ⟨name, condition, body⟩ |
      ⟨name, condition, body, atMostOne, otherwise⟩)
    · exact .set assignment
    · exact .command command
    · exact .loop name condition body
    · exact .choice name condition atMostOne (fun i hi hne => body i ⟨hi, hne⟩) otherwise

theorem isInstruction_set (hn : e.name = "set") : IsInstruction e ↔ IsAssignment e := by
  have hcommand := @IsCommand.name e
  rw [isInstruction_iff]
  simp_all

theorem isInstruction_command (hn : e.name = "command") : IsInstruction e ↔ IsCommand e := by
  have hset := @IsAssignment.name e
  rw [isInstruction_iff]
  simp_all

theorem isInstruction_loop (hn : e.name = "while") :
    IsInstruction e ↔ HasAttribute e "when" ∧ ∀ i ∈ e.elements, IsInstruction i := by
  have hset := @IsAssignment.name e
  have hcommand := @IsCommand.name e
  rw [isInstruction_iff]
  simp_all

theorem isInstruction_choice (hn : e.name = "if") :
    IsInstruction e ↔ HasAttribute e "when" ∧ (∀ i ∈ blockOf true e.children, IsInstruction i) ∧
      e.elements.countP (·.name = "else") ≤ 1 ∧
      ∀ b ∈ e.elements, b.name = "else" → ∀ i ∈ b.elements, IsInstruction i := by
  have hset := @IsAssignment.name e
  have hcommand := @IsCommand.name e
  rw [isInstruction_iff]
  simp_all

/-- The names of elements that are instructions. -/
def instructionNames : List String := ["set", "command", "while", "if"]

theorem IsInstruction.name_mem (h : IsInstruction e) : e.name ∈ instructionNames := by
  cases h with
  | set assignment => rw [assignment.name]; decide
  | command command => rw [command.name]; decide
  | loop name => rw [name]; decide
  | choice name => rw [name]; decide

theorem choiceOf_decides {condition : String} {body : List Statement} {span : Span}
    {elses : List (Element × Except Fault (List Statement))}
    (he : elses.map (·.1) = e.elements.filter isElse)
    (hd : ∀ block read, (block, read) ∈ elses →
      Decides (∀ i ∈ block.elements, IsInstruction i) e read) :
    Decides (e.elements.countP (·.name = "else") ≤ 1 ∧
        ∀ b ∈ e.elements, b.name = "else" → ∀ i ∈ b.elements, IsInstruction i) e
      (Statement.choiceOf condition body span elses) := by
  have hcount : e.elements.countP (·.name = "else") = elses.length := by
    have hlength := congrArg List.length he
    rw [List.length_map] at hlength
    rw [hlength, List.countP_eq_length_filter]
    rfl
  have hblocks : (∀ b ∈ e.elements, b.name = "else" → ∀ i ∈ b.elements, IsInstruction i) ↔
      ∀ b ∈ elses.map (·.1), ∀ i ∈ b.elements, IsInstruction i := by
    simp only [he, List.mem_filter, and_imp, isElse, beq_iff_eq]
  rw [hcount, hblocks]
  unfold Statement.choiceOf
  split
  · exact .accepts _ ⟨by decide, fun _ h => by cases h⟩
  · rename_i block read
    refine ((hd block read (List.mem_singleton_self _)).map _).congr ?_
    simp
  · rename_i block read second others rest
    have hsecond : second ∈ e.elements := by
      have hm : second ∈ e.elements.filter isElse := by
        rw [← he]
        simp
      exact List.mem_of_mem_filter hm
    exact decides_fault (fun h => by simpa using h.1) ((within_self e).child hsecond) _

end

mutual

/-- Reading an instruction decides whether it is one. -/
theorem ofElement_decides (e : Element) : Decides (IsInstruction e) e (Statement.ofElement e) := by
  match e with
  | .mk name attributes children span =>
    have hchild (i : Element) (hi : i ∈ children.filterMap Node.element?) :
        Within i (.mk name attributes children span) :=
      (within_self _).child hi
    unfold Statement.ofElement
    split
    · exact (assignmentOf_decides rfl).congr (isInstruction_set rfl).symm
    · refine ((command_decides rfl).congr (isInstruction_command rfl).symm).bind id ?_
      exact fun use _ h => .accepts _ h
    · rw [isInstruction_loop rfl]
      refine (require_decides _ "when").bind And.left fun condition _ hcondition => ?_
      have hbody := ofNodes_decides false children hchild
      rw [blockOf_false] at hbody
      refine hbody.bind And.right fun body _ hbody => ?_
      exact .accepts _ ⟨hcondition, hbody⟩
    · -- The children are gone through twice: for the body and for the blocks behind `<else>`.
      rw [isInstruction_choice rfl]
      refine (require_decides _ "when").bind And.left fun condition _ hcondition => ?_
      refine (ofNodes_decides true children hchild).bind (fun h => h.2.1) fun body _ hbody => ?_
      refine Decides.congr (choiceOf_decides (elseBlocks_elements children)
        fun block read hm => elseBlocks_decide children hchild hm) ?_
      exact ⟨fun h => ⟨hcondition, hbody, h⟩, fun h => h.2.2⟩
    · refine decides_fault (fun h => ?_) (within_self _) _
      have hname : "param" ∈ instructionNames := h.name_mem
      exact absurd hname (by decide)
    · refine decides_fault (fun h => ?_) (within_self _) _
      have hname : "else" ∈ instructionNames := h.name_mem
      exact absurd hname (by decide)
    · rename_i hset hcommand hwhile hif _ _
      refine decides_fault (fun h => ?_) (within_self _) _
      have hname : name ∈ instructionNames := h.name_mem
      simp_all [instructionNames]

theorem ofNodes_decides (skipElse : Bool) (nodes : List Node) {root : Element}
    (hw : ∀ e ∈ nodes.filterMap Node.element?, Within e root) :
    Decides (∀ e ∈ blockOf skipElse nodes, IsInstruction e) root (Statement.ofNodes skipElse nodes) := by
  match nodes with
  | [] =>
    rw [Statement.ofNodes]
    exact .accepts _ fun _ h => by cases h
  | .text .. :: rest =>
    rw [Statement.ofNodes]
    exact ofNodes_decides skipElse rest hw
  | .element e :: rest =>
    rw [Statement.ofNodes]
    have hrest := ofNodes_decides skipElse rest fun i hi => hw i (List.mem_cons_of_mem _ hi)
    by_cases hs : (skipElse && e.name == "else") = true
    · have hk : blockOf skipElse (.element e :: rest) = blockOf skipElse rest :=
        List.filter_cons_of_neg (by rw [isElse, hs]; decide)
      rw [if_pos hs, hk]
      exact hrest
    · have hk : blockOf skipElse (.element e :: rest) = e :: blockOf skipElse rest :=
        List.filter_cons_of_pos (by rw [isElse, Bool.eq_false_iff.mpr hs]; rfl)
      rw [if_neg hs, hk, List.forall_mem_cons]
      refine ((ofElement_decides e).within (hw e (List.mem_cons_self ..))).bind And.left ?_
      intro statement _ hstatement
      exact hrest.bind And.right fun others _ hothers => .accepts _ ⟨hstatement, hothers⟩

theorem elseBlocks_decide (nodes : List Node) {root : Element}
    (hw : ∀ e ∈ nodes.filterMap Node.element?, Within e root) {block : Element}
    {read : Except Fault (List Statement)} (h : (block, read) ∈ Statement.elseBlocks nodes) :
    Decides (∀ i ∈ block.elements, IsInstruction i) root read := by
  match nodes with
  | [] => rw [Statement.elseBlocks] at h; cases h
  | .text .. :: rest =>
    rw [Statement.elseBlocks] at h
    exact elseBlocks_decide rest hw h
  | .element (.mk name attributes children span) :: rest =>
    have hrest (i : Element) (hi : i ∈ rest.filterMap Node.element?) : Within i root :=
      hw i (List.mem_cons_of_mem _ hi)
    rw [Statement.elseBlocks] at h
    split at h
    · rcases List.mem_cons.mp h with h | h
      · obtain ⟨rfl, rfl⟩ := Prod.mk.inj h
        have hblock : Decides (∀ i ∈ blockOf false children, IsInstruction i) root
            (Statement.ofNodes false children) :=
          ofNodes_decides false children fun i hi => (hw _ (List.mem_cons_self ..)).child hi
        rwa [blockOf_false] at hblock
      · exact elseBlocks_decide rest hrest h
    · exact elseBlocks_decide rest hrest h

end

/-! ## Scripts -/

/-- The elements of a script from one on: parameters, if no instruction stands before, and then
instructions. -/
def IsBody : Bool → List Element → Prop
  | _, [] => True
  | started, e :: rest =>
    (started = false ∧ IsParameter e ∧ IsBody false rest) ∨ (IsInstruction e ∧ IsBody true rest)

section

variable {root e : Element} {elements parameters instructions : List Element}

theorem isBody_true_iff : IsBody true elements ↔ ∀ e ∈ elements, IsInstruction e := by
  induction elements with
  | nil => exact iff_of_true trivial fun _ h => by cases h
  | cons e rest ih => simp [IsBody, ih]

theorem isBody_false_iff : IsBody false elements ↔ ∃ parameters instructions,
    elements = parameters ++ instructions ∧ (∀ e ∈ parameters, IsParameter e) ∧
      ∀ e ∈ instructions, IsInstruction e := by
  induction elements with
  | nil => exact iff_of_true trivial ⟨[], [], rfl, fun _ h => (by cases h), fun _ h => by cases h⟩
  | cons e rest ih =>
    rw [IsBody, ih, isBody_true_iff]
    constructor
    · rintro (⟨-, hp, parameters, instructions, rfl, hps, his⟩ | ⟨hi, his⟩)
      · exact ⟨e :: parameters, instructions, rfl, List.forall_mem_cons.mpr ⟨hp, hps⟩, his⟩
      · exact ⟨[], e :: rest, rfl, fun _ h => (by cases h), List.forall_mem_cons.mpr ⟨hi, his⟩⟩
    · rintro ⟨parameters, instructions, hs, hps, his⟩
      cases parameters with
      | nil =>
        rw [List.nil_append] at hs
        subst hs
        exact .inr (List.forall_mem_cons.mp his)
      | cons p others =>
        obtain ⟨rfl, rfl⟩ := List.cons.inj hs
        obtain ⟨hp, hps⟩ := List.forall_mem_cons.mp hps
        exact .inl ⟨rfl, hp, others, instructions, rfl, hps, his⟩

theorem IsInstruction.name_ne_param (h : IsInstruction e) : e.name ≠ "param" := by
  intro hn
  have hm := h.name_mem
  rw [hn] at hm
  exact absurd hm (by decide)

/-- The parameters of a script are the elements with their name. -/
theorem filter_parameters (hp : ∀ e ∈ parameters, IsParameter e)
    (hi : ∀ e ∈ instructions, IsInstruction e) :
    (parameters ++ instructions).filter Direct.Document.isParameter = parameters := by
  rw [List.filter_append, List.filter_eq_self.mpr, List.filter_eq_nil_iff.mpr, List.append_nil]
  · intro e he hn
    exact (hi e he).name_ne_param (beq_iff_eq.mp hn)
  · intro e he
    exact beq_iff_eq.mpr (hp e he).name

/-- Reading one more element of a script. -/
theorem add_decides (he : Within e root) (body : ScriptBody) :
    Decides ((body.statements.isEmpty = true ∧ IsParameter e) ∨ IsInstruction e) root
      (body.add e) := by
  unfold ScriptBody.add
  split
  · rename_i hn
    have hparam := beq_iff_eq.mp hn
    rw [or_iff_left fun h => h.name_ne_param hparam]
    split
    · rename_i hempty
      refine ((parameter_decides hparam).within he).bind And.right fun p _ hp => ?_
      exact .accepts _ ⟨hempty, hp⟩
    · rename_i hsome
      exact decides_fault (fun h => hsome h.1) he _
  · rename_i hn
    rw [or_iff_right fun h => hn (beq_iff_eq.mpr h.2.name)]
    exact ((ofElement_decides e).within he).bind id fun statement _ h => .accepts _ h

/-- Reading the elements of a script one after the other. -/
theorem body_decides (hw : ∀ e ∈ elements, Within e root) (body : ScriptBody) :
    Decides (IsBody (!body.statements.isEmpty) elements) root
      (elements.foldlM ScriptBody.add body) := by
  induction elements generalizing body with
  | nil => exact .accepts _ trivial
  | cons e rest ih =>
    rw [List.foldlM_cons, IsBody]
    refine (add_decides (hw e (List.mem_cons_self ..)) body).bind
      (Or.imp (fun ⟨hs, hp, _⟩ => ⟨by simpa using hs, hp⟩) And.left) ?_
    intro after hafter hnext
    refine (ih (fun i hi => hw i (List.mem_cons_of_mem _ hi)) after).congr ?_
    rcases Direct.add_describes hafter with ⟨hp, parameter, -, rfl⟩ | ⟨hp, statement, -, rfl⟩
    · have hno : ¬ IsInstruction e := fun h => h.name_ne_param (beq_iff_eq.mp hp)
      simp_all
    · have hno : ¬ IsParameter e := fun h => beq_eq_false_iff_ne.mp hp h.name
      have hi : IsInstruction e := hnext.resolve_left fun h => hno h.2
      have hstarted : (body.statements ++ [statement]).isEmpty = false := by simp
      rw [hstarted]
      simp [hno, hi]

theorem default_isSome_iff {p : ScriptParameter} (h : ScriptParameter.ofElement e = .ok p) :
    p.default.isSome = true ↔ IsOptional e := by
  obtain ⟨-, ⟨hg, hd⟩ | ⟨text, value, hg, -, hd⟩⟩ := Direct.default_of_ofElement h
  · rw [IsOptional, hg, hd]
    exact Iff.rfl
  · rw [IsOptional, hg, hd]
    exact iff_of_true rfl rfl

theorem misplaced?_eq_none_iff {declared : List ScriptParameter} :
    misplaced? declared = none ↔
      declared.Pairwise fun p later => p.default.isSome = true → later.default.isSome = true := by
  induction declared with
  | nil => exact iff_of_true rfl .nil
  | cons p rest ih =>
    rw [List.pairwise_cons, ← ih, misplaced?, misplaced?]
    cases hd : p.default with
    | none =>
      rw [List.dropWhile_cons_of_pos (by rw [hd]; rfl)]
      simp
    | some value =>
      rw [List.dropWhile_cons_of_neg (by simp [hd]), List.find?_cons_of_neg (by simp [hd]),
        List.find?_eq_none]
      constructor
      · intro h
        exact ⟨fun later hl _ => by simpa [Option.isSome_iff_ne_none] using h later hl,
          List.find?_eq_none.mpr fun later hl => h later (List.dropWhile_subset _ hl)⟩
      · exact fun h later hl => by simpa [Option.isSome_iff_ne_none] using h.1 later hl rfl

theorem mem_of_misplaced? {declared : List ScriptParameter} {p : ScriptParameter}
    (h : misplaced? declared = some p) : p ∈ declared :=
  List.dropWhile_subset _ (List.mem_of_find?_eq_some h)

theorem pairwise_read (hp : ∀ e ∈ parameters, IsParameter e) :
    ((parameters.filterMap fun e => (ScriptParameter.ofElement e).toOption).Pairwise
        fun p later => p.default.isSome = true → later.default.isSome = true) ↔
      parameters.Pairwise fun e later => IsOptional e → IsOptional later := by
  rw [List.pairwise_filterMap]
  refine List.Pairwise.iff_of_mem fun {e later} he hl => ?_
  obtain ⟨p, hr⟩ := (parameter_decides (hp e he).name).ok_iff.mpr (hp e he)
  obtain ⟨q, hr'⟩ := (parameter_decides (hp later hl).name).ok_iff.mpr (hp later hl)
  rw [hr, hr']
  simp [Except.toOption, default_isSome_iff hr, default_isSome_iff hr']

/-- The parameters that are read are those of the script, in their order. -/
theorem parameters_of_body (hp : ∀ e ∈ parameters, IsParameter e)
    (hi : ∀ e ∈ instructions, IsInstruction e) {body : ScriptBody}
    (h : (parameters ++ instructions).foldlM ScriptBody.add {} = .ok body) :
    body.parameters = parameters.filterMap fun e => (ScriptParameter.ofElement e).toOption := by
  have hdescribed := (Direct.children_describe .nil h).1
  rwa [filter_parameters hp hi, List.nil_append] at hdescribed

/-- How the children of a script fall into parameters and instructions is determined by their names. -/
theorem isScript_iff (hname : root.name = "script") (hnamed : HasIdentifier root "name")
    (hreturns : MayHaveType root "return") (hs : root.elements = parameters ++ instructions)
    (hp : ∀ e ∈ parameters, IsParameter e) (hi : ∀ e ∈ instructions, IsInstruction e) :
    IsScript root ↔ parameters.Pairwise fun e later => IsOptional e → IsOptional later := by
  constructor
  · intro h
    obtain ⟨others, rest, hs', hp', horder, hi'⟩ := h.inside
    rwa [← filter_parameters hp hi, ← hs, hs', filter_parameters hp' hi']
  · exact fun horder => ⟨hname, hnamed, hreturns, parameters, instructions, hs, hp, horder, hi⟩

theorem declaration_decides (path : String) (root : Element) :
    Decides (IsScript root) root (Declaration.ofElement path root) := by
  unfold Declaration.ofElement
  split
  · rename_i hn
    exact decides_fault (fun h => bne_iff_ne.mp hn h.name) (within_self root) _
  · rename_i hn
    have hname : root.name = "script" := by simpa using hn
    refine (identifierOf_decides root "name").bind IsScript.named fun name _ hnamed => ?_
    refine (typeOf?_decides root "return").bind IsScript.returns fun returnType _ hreturns => ?_
    have hbody : Decides (IsBody false root.elements) root (root.elements.foldlM ScriptBody.add {}) :=
      body_decides (fun e he => (within_self root).child he) {}
    refine hbody.bind (fun h => isBody_false_iff.mpr ?_) fun body hb hinside => ?_
    · obtain ⟨parameters, instructions, hs, hp, -, hi⟩ := h.inside
      exact ⟨parameters, instructions, hs, hp, hi⟩
    · obtain ⟨parameters, instructions, hs, hp, hi⟩ := isBody_false_iff.mp hinside
      have hread := parameters_of_body hp hi (hs ▸ hb)
      -- All that is left to decide is the order of the parameters.
      rw [isScript_iff hname hnamed hreturns hs hp hi, ← pairwise_read hp, ← hread,
        ← misplaced?_eq_none_iff]
      split
      · rename_i p hm
        obtain ⟨e, he, hr⟩ : ∃ e ∈ parameters, (ScriptParameter.ofElement e).toOption = some p := by
          rw [← List.mem_filterMap, ← hread]
          exact mem_of_misplaced? hm
        have hchild : e ∈ root.elements := hs ▸ List.mem_append_left _ he
        rw [hm, (Direct.default_of_ofElement (ok_of_toOption hr)).1]
        exact decides_fault nofun ((within_self root).child hchild) _
      · rename_i hm
        exact .accepts _ hm

end

/-- Reading accepts exactly the grammar of scripts. For every markup tree, a script can be read from it if
and only if the tree is a script; and all else is rejected with a fault of parsing that has the place of an
element of the tree. A source text is read by reading its tree. -/
theorem reading_accepts_the_grammar (path : String) (root : Element) :
    ((∃ declaration, Declaration.ofElement path root = .ok declaration) ↔ IsScript root) ∧
    (∀ fault, Declaration.ofElement path root = .error fault →
      fault.kind = .parse ∧ ∃ e, Within e root ∧ fault.span = some e.span) ∧
    ∀ source, Markup.parse source = .ok root →
      Script.parse path source = (Declaration.ofElement path root).map (·.toScript) := by
  have hdecides := declaration_decides path root
  refine ⟨hdecides.ok_iff, fun fault hf => ?_, fun source hs => ?_⟩
  · have hat := (hf ▸ hdecides).isAt
    exact ⟨hat.kind, hat.place⟩
  · rw [Script.parse, Declaration.parse, hs]
    rfl

/-- A script with a choice inside a loop. The `<else>` stands in front of what it is the alternative of. -/
def nestedSource : String :=
  "<script name=\" ask \"><param name=\"b\" type=\"Number\" default=\"-.5e+1\"/><while when=\"b\">" ++
    "<if when=\"b\"><else/><command name=\"Break\"/></if></while></script>"

/-- The choice has a second `<else>`. -/
def ambiguousSource : String :=
  "<script name=\"ask\"><while when=\"a\"><if when=\"b\"><else/><else/></if></while></script>"

theorem nested_accepted_ambiguous_rejected :
    (∃ root, Markup.parse nestedSource = .ok root ∧ IsScript root) ∧
      ∃ root fault, Markup.parse ambiguousSource = .ok root ∧ ¬ IsScript root ∧
        Script.parse "ask.script.xml" ambiguousSource = .error fault ∧ fault.kind = .parse ∧
        ∃ e, Within e root ∧ fault.span = some e.span := by
  have hnested : (Markup.parse nestedSource).toOption.map
      (fun root => (Declaration.ofElement "ask.script.xml" root).toOption.isSome) = some true := by
    decide +kernel
  have hambiguous : (Markup.parse ambiguousSource).toOption.map
      (fun root => (Declaration.ofElement "ask.script.xml" root).toOption.isSome) = some false := by
    decide +kernel
  constructor
  · obtain ⟨root, hroot, hread⟩ := Option.map_eq_some_iff.mp hnested
    obtain ⟨declaration, hd⟩ := Option.isSome_iff_exists.mp hread
    exact ⟨root, ok_of_toOption hroot,
      (reading_accepts_the_grammar "ask.script.xml" root).1.mp ⟨declaration, ok_of_toOption hd⟩⟩
  · obtain ⟨root, hroot, hread⟩ := Option.map_eq_some_iff.mp hambiguous
    obtain ⟨hiff, hplaced, hsource⟩ := reading_accepts_the_grammar "ask.script.xml" root
    have hparse := ok_of_toOption hroot
    cases hd : Declaration.ofElement "ask.script.xml" root with
    | ok declaration => rw [hd] at hread; cases hread
    | error fault =>
      rw [hd] at hiff
      refine ⟨root, fault, hparse, fun h => ?_, ?_, hplaced fault hd⟩
      · obtain ⟨declaration, hok⟩ := hiff.mpr h
        cases hok
      · rw [hsource _ hparse, hd]
        rfl

end ScriptEngine.Grammar
