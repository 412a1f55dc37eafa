import ScriptEngine.Proofs.Direct.Places

/-!
# The machine follows the interpretation

`Follows` says how the machine carries out what the interpretation gives for a stretch of code: it comes
to the end of the stretch, or behind or back to the beginning of the innermost loop, or takes the step
that ends the script or the run. If the fuel was too small, the machine takes at least as many steps.

`follows_exec` shows this for every statement by induction on the fuel, with one lemma for each kind of
statement, and `follows_sequence` for statements in a row.
-/

namespace ScriptEngine.Direct

open Markup (Element)

/-- Instructions stand in a script from an index on. -/
def CodeAt (script : Script) (start : Nat) (code : List Instruction) : Prop :=
  ∃ before behind, script.instructions = before ++ (code ++ behind) ∧ before.length = start

section

variable {script : Script} {start : Nat} {instruction : Instruction} {code more : List Instruction}

theorem CodeAt.append (h : CodeAt script start (code ++ more)) :
    CodeAt script start code ∧ CodeAt script (start + code.length) more := by
  obtain ⟨before, behind, hs, rfl⟩ := h
  refine ⟨⟨before, more ++ behind, by rw [hs, List.append_assoc], rfl⟩, before ++ code, behind, ?_, ?_⟩
  · rw [hs, List.append_assoc, List.append_assoc]
  · rw [List.length_append]

theorem CodeAt.cons (h : CodeAt script start (instruction :: code)) :
    script.instructions[start]? = some instruction ∧ CodeAt script (start + 1) code := by
  have h' : CodeAt script start ([instruction] ++ code) := h
  refine ⟨?_, h'.append.2⟩
  obtain ⟨before, behind, hs, rfl⟩ := h
  rw [hs, List.cons_append, List.getElem?_append_right (Nat.le_refl _), Nat.sub_self,
    List.getElem?_cons_zero]

end

/-- The machine carries out what the interpretation of a stretch of code gives: it starts before the
stretch, and `stop` is the index behind it. -/
def Follows (machine : Machine) (place : Place) (fuel : Nat) (before : State × Log) (stop : Nat)
    (own : List LoopContext) : Result → Prop
  | none => ∃ steps after, fuel ≤ steps ∧ machine.Takes steps before after
  | some (.next, store) => ∃ steps, machine.Takes steps before (place.state stop own store, store.log)
  | some (.broken, store) => ∃ steps loop outer, own = loop :: outer ∧
      machine.Takes steps before (place.state loop.exit outer store, store.log)
  | some (.continued, store) => ∃ steps loop outer, own = loop :: outer ∧
      machine.Takes steps before (place.state loop.recheck own store, store.log)
  | some (.returned value span, store) => ∃ steps last, machine.Takes steps before last ∧
      machine.step last.1 = place.left value span store ∧
      last.2.add (machine.observe last.1) none = store.log
  | some (.failed fault, store) => ∃ steps last final, machine.Takes steps before last ∧
      machine.step last.1 = (.failed fault, final) ∧ final.world = store.world ∧
      last.2.add (machine.observe last.1) none = store.log

section

variable {machine : Machine} {program : Program} {place : Place} {fuel fuel' stop stop' steps : Nat}
  {before next : State × Log} {own : List LoopContext} {result : Result}

/-- Steps before a stretch of code. -/
theorem Follows.after (h : machine.Takes steps before next)
    (hf : Follows machine place fuel next stop own result) (hle : fuel' ≤ steps + fuel) :
    Follows machine place fuel' before stop own result := by
  match result with
  | none =>
    obtain ⟨more, last, hm, ht⟩ := hf
    exact ⟨steps + more, last, by omega, h.trans ht⟩
  | some (.next, store) =>
    obtain ⟨more, ht⟩ := hf
    exact ⟨steps + more, h.trans ht⟩
  | some (.broken, store) =>
    obtain ⟨more, loop, outer, hl, ht⟩ := hf
    exact ⟨steps + more, loop, outer, hl, h.trans ht⟩
  | some (.continued, store) =>
    obtain ⟨more, loop, outer, hl, ht⟩ := hf
    exact ⟨steps + more, loop, outer, hl, h.trans ht⟩
  | some (.returned value span, store) =>
    obtain ⟨more, last, ht, hs⟩ := hf
    exact ⟨steps + more, last, h.trans ht, hs⟩
  | some (.failed fault, store) =>
    obtain ⟨more, last, final, ht, hs⟩ := hf
    exact ⟨steps + more, last, final, h.trans ht, hs⟩

/-- What does not lead to the end of a stretch does not depend on where that is. -/
theorem Follows.elsewhere (h : Follows machine place fuel before stop own result)
    (hn : ∀ store, result ≠ some (.next, store)) :
    Follows machine place fuel before stop' own result := by
  match result with
  | none | some (.broken, _) | some (.continued, _) | some (.returned .., _) | some (.failed _, _) =>
    exact h
  | some (.next, store) => exact absurd rfl (hn store)

/-- A step that fails. -/
theorem Follows.fails {state final : State} {log : Log} {fault : Fault} {store : Store}
    (hs : machine.step state = (.failed fault, final)) (hw : final.world = store.world)
    (hl : log.add (machine.observe state) none = store.log) :
    Follows machine place fuel (state, log) stop own (some (.failed fault, store)) :=
  ⟨0, (state, log), final, .stay, hs, hw, hl⟩

/-- A stretch of code from whose end the machine goes on to another index. -/
theorem Follows.thence (h : Follows machine place fuel before stop own result)
    (hn : ∀ store, ∃ steps, machine.Takes steps (place.state stop own store, store.log)
      (place.state stop' own store, store.log)) :
    Follows machine place fuel before stop' own result := by
  match result with
  | none | some (.broken, _) | some (.continued, _) | some (.returned .., _) | some (.failed _, _) =>
    exact h
  | some (.next, store) =>
    obtain ⟨steps, ht⟩ := h
    obtain ⟨more, ht'⟩ := hn store
    exact ⟨steps + more, ht.trans ht'⟩

/-- The loops at the beginning of a statement: those around it, and at a loop that is repeated the loop
itself. -/
def Enters (place : Place) (statement : Statement) (start : Nat) (own entered : List LoopContext) :
    Prop :=
  entered = own ∨ ∃ condition body span, statement = .loop condition body span ∧
    entered = ⟨start, start + (statement.lower start).length, place.depth⟩ :: own

/-- The machine follows the interpretation of every statement with some fuel. -/
def Simulates (machine : Machine) (program : Program) (fuel : Nat) : Prop :=
  ∀ {place : Place} {statement : Statement} {e : Element} {start : Nat}
    {own entered : List LoopContext} (store : Store), Describes statement e →
    CodeAt place.script start (statement.lower start) → place.Owns start own →
    Enters place statement start own entered →
    Follows machine place fuel (place.state start entered store, store.log)
      (start + (statement.lower start).length) own (program.exec fuel (place.scope own) e store)

theorem follows_sequence (hs : Simulates machine program fuel) {statements : List Statement}
    {elements : List Element} (hd : List.Forall₂ Describes statements elements) {start : Nat}
    (hc : CodeAt place.script start (Statement.lowerAll start statements))
    (ho : place.Owns start own) (store : Store) :
    Follows machine place fuel (place.state start own store, store.log)
      (start + (Statement.lowerAll start statements).length) own
      (sequence (program.exec fuel (place.scope own)) elements store) := by
  induction hd generalizing start store with
  | nil => exact ⟨0, .stay⟩
  | @cons statement e statements elements hd _ ih =>
    rw [Statement.lowerAll] at hc ⊢
    obtain ⟨hfirst, hrest⟩ := hc.append
    have hf := hs store hd hfirst ho (.inl rfl)
    rw [sequence]
    match hr : program.exec fuel (place.scope own) e store with
    | none | some (.broken, _) | some (.continued, _) | some (.returned .., _) |
        some (.failed _, _) =>
      rw [hr] at hf
      exact hf.elsewhere (by simp)
    | some (.next, after) =>
      rw [hr] at hf
      obtain ⟨steps, ht⟩ := hf
      rw [List.length_append, ← Nat.add_assoc]
      exact .after ht (ih hrest (ho.mono (Nat.le_add_right ..)) after) (Nat.le_add_left ..)

/-! ## Statements that evaluate an expression first -/

variable {start : Nat} {entered own' : List LoopContext} {store : Store} {operation : Operation}
  {span : Span} {expression : String}

/-- What follows the evaluation of an expression. -/
theorem follows_value (hl : Loads machine program)
    (hi : place.script.instructions[start]? = some ⟨operation, span⟩)
    (hx : expression? operation = some expression) {use : Value → Store → Result}
    (hv : ∀ value, machine.evaluate expression store.locals = .ok value →
      Follows machine place fuel (place.state start entered store, store.log) stop own
        (use value (store.see [.evaluated expression store.locals]))) :
    Follows machine place fuel (place.state start entered store, store.log) stop own
      (program.withValue expression span store use) := by
  rw [Program.withValue, ← hl.evaluate]
  cases he : machine.evaluate expression store.locals with
  | error cause =>
    exact .fails (Place.step_error hi hx he) rfl (by rw [Place.observe_expression hi hx]; rfl)
  | ok value => exact hv value he

/-- A step that leads to a state of the same place. -/
theorem takes_one {ip : Nat} {after : Store} {degraded : Option Fault}
    (hs : machine.step (place.state start entered store) =
      (.running degraded, place.state ip own' after))
    (hl : after.log = store.log.add (machine.observe (place.state start entered store)) degraded) :
    machine.Takes 1 (place.state start entered store, store.log)
      (place.state ip own' after, after.log) := by
  rw [hl]
  exact .single hs

/-- The step of an operation that has evaluated its expression. -/
theorem takes_value {ip : Nat} {after : Store}
    (hi : place.script.instructions[start]? = some ⟨operation, span⟩)
    (hx : expression? operation = some expression)
    (hs : machine.step (place.state start entered store) = (.running none, place.state ip own' after))
    (hl : after.log = store.log.add [.evaluated expression store.locals] none) :
    machine.Takes 1 (place.state start entered store, store.log)
      (place.state ip own' after, after.log) :=
  takes_one hs (by rw [hl, Place.observe_expression hi hx])

theorem follows_assign (hl : Loads machine program) {target : String}
    (hi : place.script.instructions[start]? = some ⟨.assign target expression, span⟩) :
    Follows machine place (fuel + 1) (place.state start own store, store.log) (start + 1) own
      (program.withValue expression span store fun value store =>
        some (.next, store.give (some target) value)) := by
  refine follows_value hl hi rfl fun value hv => ⟨1, ?_⟩
  exact takes_value hi rfl (Place.step_assign hi hv) rfl

theorem takes_goto {target : Nat}
    (hi : place.script.instructions[start]? = some ⟨operation, span⟩)
    (ho : operation = .jump target ∨ operation = .loopEnd target) :
    machine.Takes 1 (place.state start own store, store.log)
      (place.state target own store, store.log) := by
  obtain ⟨hs, he⟩ := @Place.step_goto machine place start own store _ _ _ hi ho
  exact takes_one hs (by rw [he, Log.add_nil])

/-- A branch, from what follows on either side. -/
theorem follows_branch (hl : Loads machine program) {otherwise : Nat} {body others : List Element}
    (hi : place.script.instructions[start]? = some ⟨.branch expression otherwise, span⟩)
    (ht : ∀ store, Follows machine place fuel (place.state (start + 1) own store, store.log) stop own
      (sequence (program.exec fuel (place.scope own)) body store))
    (hf : ∀ store, Follows machine place fuel (place.state otherwise own store, store.log) stop own
      (sequence (program.exec fuel (place.scope own)) others store)) :
    Follows machine place (fuel + 1) (place.state start own store, store.log) stop own
      (program.withValue expression span store fun value store =>
        sequence (program.exec fuel (place.scope own)) (if value.isTruthy then body else others)
          store) := by
  refine follows_value hl hi rfl fun value hv => ?_
  have hs := @Place.step_branch machine place start own store _ _ _ _ hi hv
  have hstep : machine.Takes 1 (place.state start own store, store.log)
      (place.state (if value.isTruthy then start + 1 else otherwise) own
        (store.see [.evaluated expression store.locals]), _) := takes_value hi rfl hs rfl
  cases hc : value.isTruthy with
  | true =>
    rw [hc] at hstep
    exact .after hstep (ht _) (Nat.le_of_eq (Nat.add_comm ..))
  | false =>
    rw [hc] at hstep
    exact .after hstep (hf _) (Nat.le_of_eq (Nat.add_comm ..))

theorem follows_guarded (hs : Simulates machine program fuel) (hl : Loads machine program)
    {statements : List Statement} {body : List Element}
    (hb : List.Forall₂ Describes statements body)
    (hc : CodeAt place.script start ((Statement.guarded expression statements span).lower start))
    (ho : place.Owns start own) :
    Follows machine place (fuel + 1) (place.state start own store, store.log)
      (start + ((Statement.guarded expression statements span).lower start).length) own
      (program.withValue expression span store fun value store =>
        sequence (program.exec fuel (place.scope own)) (if value.isTruthy then body else []) store) := by
  rw [Statement.lower] at hc ⊢
  obtain ⟨hi, hbody⟩ := hc.cons
  rw [List.length_cons, ← Nat.add_assoc]
  refine follows_branch hl hi (fun store => ?_) fun store => ⟨0, .stay⟩
  rw [Nat.add_right_comm]
  exact follows_sequence hs hb hbody (ho.mono (Nat.le_succ _)) store

theorem follows_choice (hs : Simulates machine program fuel) (hl : Loads machine program)
    {statements alternatives : List Statement} {body otherwise : List Element} {elseSpan : Span}
    (hb : List.Forall₂ Describes statements body)
    (ha : List.Forall₂ Describes alternatives otherwise)
    (hc : CodeAt place.script start
      ((Statement.choice expression statements elseSpan alternatives span).lower start))
    (ho : place.Owns start own) :
    Follows machine place (fuel + 1) (place.state start own store, store.log)
      (start + ((Statement.choice expression statements elseSpan alternatives span).lower
        start).length) own
      (program.withValue expression span store fun value store =>
        sequence (program.exec fuel (place.scope own)) (if value.isTruthy then body else otherwise)
          store) := by
  rw [Statement.lower] at hc ⊢
  rw [List.cons_append] at hc
  obtain ⟨hi, hrest⟩ := hc.cons
  obtain ⟨hbody, hrest⟩ := hrest.append
  obtain ⟨hj, helse⟩ := hrest.cons
  have hstop : ∀ code elseCode : List Instruction, ∀ first jump : Instruction,
      start + (first :: code ++ jump :: elseCode).length =
        start + code.length + 2 + elseCode.length := fun code elseCode first jump => by
    simp only [List.length_append, List.length_cons]
    omega
  rw [hstop]
  refine follows_branch hl hi (fun store => ?_) fun store => ?_
  · refine (follows_sequence hs hb hbody (ho.mono (Nat.le_succ _)) store).thence fun store => ?_
    exact ⟨1, takes_goto hj (.inl rfl)⟩
  · have hat : start + 1 + (Statement.lowerAll (start + 1) statements).length + 1 =
        start + (Statement.lowerAll (start + 1) statements).length + 2 := by omega
    rw [hat] at helse
    exact follows_sequence hs ha helse (ho.mono (by omega)) store

theorem lower_loop_length (start : Nat) (condition : String) (body : List Statement) (span : Span) :
    ((Statement.loop condition body span).lower start).length =
      (Statement.lowerAll (start + 1) body).length + 2 := by
  rw [Statement.lower]
  simp only [List.length_append, List.length_cons, List.length_nil]

/-- A loop, entered from outside or after a round. -/
theorem follows_loop (hs : Simulates machine program fuel) (hl : Loads machine program) {e : Element}
    {statements : List Statement} {body : List Element}
    (he : shape e = .loop expression body) (hb : List.Forall₂ Describes statements body)
    (hc : CodeAt place.script start ((Statement.loop expression statements e.span).lower start))
    (ho : place.Owns start own)
    (hn : Enters place (.loop expression statements e.span) start own entered) :
    Follows machine place (fuel + 1) (place.state start entered store, store.log)
      (start + ((Statement.loop expression statements e.span).lower start).length) own
      (program.exec (fuel + 1) (place.scope own) e store) := by
  have hlen : start + ((Statement.loop expression statements e.span).lower start).length =
      start + (Statement.lowerAll (start + 1) statements).length + 2 := by
    rw [lower_loop_length, Nat.add_assoc]
  have hc' := hc
  rw [Statement.lower, List.cons_append] at hc'
  obtain ⟨hi, hrest⟩ := hc'.cons
  obtain ⟨hbody, hrest⟩ := hrest.append
  obtain ⟨hend, -⟩ := hrest.cons
  let loop : LoopContext :=
    ⟨start, start + (Statement.lowerAll (start + 1) statements).length + 2, place.depth⟩
  have hentered : entered = own ∨ entered = loop :: own := by
    rcases hn with hn | ⟨_, _, _, -, hn⟩
    · exact .inl hn
    · exact .inr (by rw [hn, hlen])
  have howns : place.Owns (start + 1) (loop :: own) := ho.cons rfl rfl
  -- After a round the loop is on top of the stack, and the interpretation begins it anew.
  have hagain : ∀ after : Store, Follows machine place fuel
      (place.state start (loop :: own) after, after.log)
      (start + ((Statement.loop expression statements e.span).lower start).length) own
      (program.exec fuel (place.scope own) e after) := fun after =>
    hs after (.loop he hb) hc ho (.inr ⟨_, _, _, rfl, by rw [hlen]⟩)
  rw [Program.exec, he]
  refine follows_value hl hi rfl fun value hv => ?_
  have hstep := @Place.step_loopStart machine place start own store _ _ _ _ _ hi ho hentered hv
  cases hc : value.isTruthy with
  | false =>
    rw [hc] at hstep
    rw [hlen]
    exact ⟨1, takes_value hi rfl hstep rfl⟩
  | true =>
    rw [hc] at hstep
    have ht : machine.Takes 1 (place.state start entered store, store.log) (place.state (start + 1)
        (loop :: own) (store.see [.evaluated expression store.locals]), _) :=
      takes_value hi rfl hstep rfl
    have hf := follows_sequence hs hb hbody howns (store.see [.evaluated expression store.locals])
    simp only [if_true]
    have hscope : place.scope (loop :: own) = { place.scope own with inLoop := true } := rfl
    rw [hscope] at hf
    cases hr : sequence (program.exec fuel { place.scope own with inLoop := true }) body
        (store.see [.evaluated expression store.locals]) with
    | none =>
      rw [hr] at hf
      exact .after ht hf (Nat.le_of_eq (Nat.add_comm ..))
    | some result =>
      obtain ⟨flow, after⟩ := result
      rw [hr] at hf
      cases flow with
      | next =>
        obtain ⟨steps, hround⟩ := hf
        exact .after ((ht.trans hround).trans (takes_goto hend (.inr rfl))) (hagain after) (by omega)
      | continued =>
        obtain ⟨steps, _, _, ⟨⟩, hround⟩ := hf
        exact .after (ht.trans hround) (hagain after) (by omega)
      | broken =>
        obtain ⟨steps, _, _, ⟨⟩, hround⟩ := hf
        rw [hlen]
        exact ⟨1 + steps, ht.trans hround⟩
      | returned value span => exact .after ht hf (Nat.le_of_eq (Nat.add_comm ..))
      | failed fault => exact .after ht hf (Nat.le_of_eq (Nat.add_comm ..))

/-! ## Commands -/

/-- The arguments of a command are evaluated one after the other, and all of them in one step. -/
theorem withValues_eq (hl : Loads machine program) (arguments : List String) (store : Store)
    (use : List Value → Store → Result) :
    program.withValues span arguments store use =
      match arguments.mapM (machine.evaluate · store.locals) with
      | .error cause =>
        some (.failed ⟨cause, some span⟩, store.see (machine.evaluations store.locals arguments))
      | .ok values => use values (store.see (machine.evaluations store.locals arguments)) := by
  induction arguments generalizing store use with
  | nil =>
    rw [Program.withValues, Machine.evaluations, Store.see, Log.add_nil]
    rfl
  | cons expression rest ih =>
    rw [Program.withValues, Program.withValue, ← hl.evaluate, List.mapM_cons, Machine.evaluations]
    cases machine.evaluate expression store.locals with
    | error cause => rfl
    | ok value =>
      simp only [ih]
      show (match rest.mapM (machine.evaluate · store.locals) with | .error _ => _ | .ok _ => _) = _
      cases rest.mapM (machine.evaluate · store.locals) with
      | error cause =>
        simp only [Store.see, Log.add_add]
        rfl
      | ok values =>
        simp only [Store.see, Log.add_add]
        rfl

theorem Compiled.name_eq {script : Script} {document : Document} (h : Compiled script document) :
    script.name = document.name := by
  obtain ⟨declaration, hd, rfl⟩ := h
  exact hd.name

theorem Compiled.arity_eq {script : Script} {document : Document} (h : Compiled script document) :
    script.arity = document.arity := by
  obtain ⟨declaration, hd, rfl⟩ := h
  rw [Document.arity, ← hd.parameters]
  rfl

theorem Compiled.bind_eq {script : Script} {document : Document} (h : Compiled script document)
    (bindings : Bindings) : script.bind bindings = document.bind bindings := by
  obtain ⟨declaration, hd, rfl⟩ := h
  rw [Document.bind, ← hd.parameters]
  rfl

/-- A call starts in the machine if it starts in the interpretation, and with the same locals. -/
theorem startOf_compiled (hl : Loads machine program) (site : CallSite) (target : String)
    (arguments : List Value) (depth : Nat) :
    (∃ degraded, machine.startOf site target arguments depth = .inl degraded ∧
      program.startOf site target arguments depth = .inl degraded) ∨
    ∃ script document locals expected, Compiled script document ∧
      machine.startOf site target arguments depth = .inr (script, locals, expected) ∧
      program.startOf site target arguments depth = .inr (document, locals, expected) := by
  have hr := hl.scripts target
  unfold Machine.startOf Program.startOf
  generalize machine.scripts.get? target = script at hr ⊢
  generalize program.find? target = document at hr ⊢
  cases hr with
  | none => exact .inl ⟨_, rfl, rfl⟩
  | @some script document hc =>
    have ht : script.returnType = document.returnType := by
      obtain ⟨declaration, hd, rfl⟩ := hc
      exact hd.returnType
    simp only [ht, hl.depthLimit, hc.arity_eq, hc.name_eq]
    by_cases hd : program.depthLimit ≤ depth
    · rw [if_pos hd, if_pos hd]
      exact .inl ⟨_, rfl, rfl⟩
    · rw [if_neg hd, if_neg hd]
      cases document.arity.bind arguments with
      | error fault => exact .inl ⟨_, rfl, rfl⟩
      | ok bindings =>
        refine .inr ⟨script, document, document.bind bindings, _, hc, ?_, rfl⟩
        rw [← hc.bind_eq bindings]

variable {use : CommandUse} {arguments : List Value} {action : Action} {world : World}

/-- The state after a command was dispatched, before what it asks for is done. -/
def Store.asked (machine : Machine) (store : Store) (use : CommandUse) (arguments : List Value)
    (world : World) : Store :=
  { (store.see (machine.evaluations store.locals use.arguments)).see [.dispatched use.name arguments]
    with world }

/-- A command as one step: what was seen of it, and what it led to. -/
theorem step_asked (hi : place.script.instructions[start]? = some ⟨.command use, span⟩)
    (ha : use.arguments.mapM (machine.evaluate · store.locals) = .ok arguments)
    (hq : machine.commands.request place.identity use.name arguments store.world =
      (.ok action, world)) :
    machine.step (place.state start own store) =
        Machine.settle use span (machine.perform ⟨use.result, use.expect⟩ store.world.readClock.1 action
          (place.state start own (store.asked machine use arguments world))) ∧
      ∀ degraded, store.log.add (machine.observe (place.state start own store)) degraded =
        (store.asked machine use arguments world).log.add
          (action.events place.script.name store.timers store.world.readClock.1) degraded := by
  refine ⟨Place.step_command hi ha hq, fun degraded => ?_⟩
  rw [Place.observe_eq hi, Machine.operationEvents, Machine.commandEvents]
  simp only [Place.frame, ha, hq, Store.asked, Store.see, Log.add_add, List.append_assoc,
    List.singleton_append]

/-- A whole script from its beginning. -/
theorem follows_script (hs : Simulates machine program fuel) {document : Document}
    (hc : Compiled place.script document) (store : Store) :
    Follows machine place fuel (place.state 0 [] store, store.log) place.script.instructions.length []
      (sequence (program.exec fuel ⟨place.identity, document.name, place.depth, false⟩) document.body
        store) := by
  have hname := hc.name_eq
  obtain ⟨declaration, hd, hscript⟩ := hc
  have hcode : CodeAt place.script 0 (Statement.lowerAll 0 declaration.body) := by
    rw [hscript]
    exact ⟨[], [], (List.append_nil _).symm, rfl⟩
  have hlen : place.script.instructions.length =
      0 + (Statement.lowerAll 0 declaration.body).length := by
    rw [hscript, Nat.zero_add]
    rfl
  rw [hlen, ← hname]
  exact follows_sequence hs hd.body hcode Place.Owns.nil store

/-- The step that ends a script behind its last instruction. -/
theorem step_end (after : Store) :
    machine.step (place.state place.script.instructions.length [] after) =
        place.left .invalid none after ∧
      after.log.add (machine.observe (place.state place.script.instructions.length [] after)) none =
        after.log := by
  have hend : place.script.instructions[place.script.instructions.length]? = none :=
    List.getElem?_eq_none (Nat.le_refl _)
  refine ⟨Place.step_behind (fun _ hm => absurd hm List.not_mem_nil) hend, ?_⟩
  rw [Place.observe_behind hend, Log.add_nil]

/-- The caller goes on with the step that ends the script it called. -/
theorem takes_back {script : Script} {document : Document} {slot : Option String}
    {expected : DataType} {value : Value} {span : Option Span} {after : Store} {last : State × Log}
    (ho : ∀ loop ∈ own, loop.depth = place.depth) (hn : script.name = document.name)
    (hs : machine.step last.1 = (place.callee start own ho store script slot expected).left value span
      after)
    (hl : last.2.add (machine.observe last.1) none = after.log) :
    machine.Takes 1 last
      (place.state (start + 1) own
          (Program.deliver store after document slot expected value span),
        (Program.deliver store after document slot expected value span).log) := by
  obtain ⟨degraded, hleft, hdelivered⟩ :=
    @Place.callee_left place start own store ho after document script slot expected hn value span
  rw [hdelivered, ← hl, Log.add_add, List.append_nil]
  exact .single (hs.trans hleft)

theorem follows_call (hs : Simulates machine program fuel) (hl : Loads machine program)
    (ho : place.Owns start own) {target : String}
    (hi : place.script.instructions[start]? = some ⟨.command use, span⟩)
    {values : List Value} (ha : use.arguments.mapM (machine.evaluate · store.locals) = .ok arguments)
    (hq : machine.commands.request place.identity use.name arguments store.world =
      (.ok (.call target values), world)) :
    Follows machine place (fuel + 1) (place.state start own store, store.log) (start + 1) own
      (program.perform (fun scope => sequence (program.exec fuel scope)) (place.scope own) use span
        store.world.readClock.1 (.call target values) (store.asked machine use arguments world)) := by
  obtain ⟨hstep, hseen⟩ := @step_asked machine place own start store span use arguments _ world hi ha hq
  rw [Program.perform, show (place.scope own).depth = place.depth from rfl]
  rcases startOf_compiled hl ⟨use.result, use.expect⟩ target values place.depth with
    ⟨⟨value, fault⟩, hm, hp⟩ | ⟨script, document, locals, expected, hc, hm, hp⟩
  · rw [Place.perform_degraded_call hm, Machine.settle, Place.stored_eq] at hstep
    rw [hp]
    exact ⟨1, takes_one hstep (hseen _).symm⟩
  · have hdepth : ∀ loop ∈ own, loop.depth = place.depth := fun loop hm => (ho loop hm).1
    rw [Place.perform_call hdepth hm, Machine.settle] at hstep
    have hname := hc.name_eq
    let asked := store.asked machine use arguments world
    let callee := place.callee start own hdepth asked script use.result expected
    have ht : machine.Takes 1 (place.state start own store, store.log)
        (callee.state 0 [] { asked with locals }, asked.log) := by
      rw [← asked.log.add_nil, ← show _ = asked.log.add [] none from hseen none]
      exact .single hstep
    have hf : Follows machine callee fuel (callee.state 0 [] { asked with locals }, asked.log)
        callee.script.instructions.length []
        (sequence (program.exec fuel ⟨place.identity, document.name, place.depth + 1, false⟩)
          document.body { asked with locals }) := follows_script hs hc _
    rw [hp]
    simp only [show (place.scope own).identity = place.identity from rfl]
    cases hr : sequence (program.exec fuel ⟨place.identity, document.name, place.depth + 1, false⟩)
        document.body { asked with locals } with
    | none =>
      rw [hr] at hf
      exact .after ht hf (Nat.le_of_eq (Nat.add_comm ..))
    | some result =>
      obtain ⟨flow, after⟩ := result
      rw [hr] at hf
      cases flow with
      | failed fault => exact .after ht hf (Nat.le_of_eq (Nat.add_comm ..))
      | next =>
        obtain ⟨steps, hrun⟩ := hf
        obtain ⟨hlast, hlog⟩ := @step_end machine callee after
        exact ⟨_, (ht.trans hrun).trans (takes_back hdepth hname hlast hlog)⟩
      | returned value span =>
        obtain ⟨steps, last, hrun, hlast, hlog⟩ := hf
        exact ⟨_, (ht.trans hrun).trans (takes_back hdepth hname hlast hlog)⟩
      | broken => obtain ⟨_, _, _, ⟨⟩, _⟩ := hf
      | continued => obtain ⟨_, _, _, ⟨⟩, _⟩ := hf

/-- What a command asks for is done as the interpretation does it. -/
theorem follows_perform (hs : Simulates machine program fuel) (hl : Loads machine program)
    (ho : place.Owns start own)
    (hi : place.script.instructions[start]? = some ⟨.command use, span⟩)
    (ha : use.arguments.mapM (machine.evaluate · store.locals) = .ok arguments)
    (hq : machine.commands.request place.identity use.name arguments store.world =
      (.ok action, world)) :
    Follows machine place (fuel + 1) (place.state start own store, store.log) (start + 1) own
      (program.perform (fun scope => sequence (program.exec fuel scope)) (place.scope own) use span
        store.world.readClock.1 action (store.asked machine use arguments world)) := by
  obtain ⟨hstep, hseen⟩ := @step_asked machine place own start store span use arguments _ world hi ha hq
  have hdepth : ∀ loop ∈ own, loop.depth = place.depth := fun loop hm => (ho loop hm).1
  cases action with
  | value value =>
    rw [Machine.perform, Machine.settle, Place.stored_eq] at hstep
    exact ⟨1, takes_one hstep ((hseen none).trans (Log.add_nil _)).symm⟩
  | print message =>
    rw [Place.perform_print, Machine.settle, Place.stored_eq] at hstep
    exact ⟨1, takes_one hstep (hseen none).symm⟩
  | secondsPassed =>
    rw [Place.perform_secondsPassed, Machine.settle, Place.stored_eq] at hstep
    exact ⟨1, takes_one hstep (hseen none).symm⟩
  | breakLoop =>
    cases own with
    | nil =>
      rw [Place.perform_breakLoop_outside, Machine.settle] at hstep
      exact .fails hstep rfl ((hseen none).trans (Log.add_nil _))
    | cons loop outer =>
      rw [Place.perform_breakLoop (hdepth loop (List.mem_cons_self ..)), Machine.settle] at hstep
      exact ⟨1, loop, outer, rfl, takes_one hstep ((hseen none).trans (Log.add_nil _)).symm⟩
  | continueLoop =>
    cases own with
    | nil =>
      rw [Place.perform_continueLoop_outside, Machine.settle] at hstep
      exact .fails hstep rfl ((hseen none).trans (Log.add_nil _))
    | cons loop outer =>
      rw [Place.perform_continueLoop (hdepth loop (List.mem_cons_self ..)), Machine.settle] at hstep
      exact ⟨1, loop, outer, rfl, takes_one hstep ((hseen none).trans (Log.add_nil _)).symm⟩
  | finish value =>
    rw [Place.settle_finish hdepth] at hstep
    exact ⟨0, _, .stay, hstep, (hseen none).trans (Log.add_nil _)⟩
  | call target values => exact follows_call hs hl ho hi ha hq

theorem follows_command (hs : Simulates machine program fuel) (hl : Loads machine program)
    (ho : place.Owns start own)
    (hi : place.script.instructions[start]? = some ⟨.command use, span⟩) :
    Follows machine place (fuel + 1) (place.state start own store, store.log) (start + 1) own
      (program.command (fun scope => sequence (program.exec fuel scope)) (place.scope own) use span
        store) := by
  have hstep : machine.step (place.state start own store) = _ :=
    (Place.step_eq hi).trans (Machine.stepAt_command machine use span)
  have hseen := @Place.observe_eq machine place start own store _ hi
  rw [Machine.operationEvents, Machine.commandEvents] at hseen
  rw [Program.command, withValues_eq hl]
  cases ha : use.arguments.mapM (machine.evaluate · store.locals) with
  | error cause =>
    simp only [Place.frame, ha] at hstep hseen
    exact .fails hstep rfl (by rw [hseen, List.append_nil]; rfl)
  | ok arguments =>
    rw [← hl.commands]
    have hr : machine.commands.request (place.scope own).identity use.name arguments
        (store.see (machine.evaluations store.locals use.arguments)).world =
        machine.commands.request place.identity use.name arguments store.world := rfl
    dsimp only
    rw [hr]
    cases hq : machine.commands.request place.identity use.name arguments store.world with
    | mk result world =>
      cases result with
      | error cause =>
        simp only [Place.frame, ha, Machine.dispatch_eq, hq] at hstep hseen
        refine .fails hstep rfl ?_
        rw [hseen]
        exact (Log.add_add ..).symm
      | ok action => exact follows_perform hs hl ho hi ha hq

/-- The machine follows the interpretation of every statement, with any fuel. -/
theorem follows_exec (hl : Loads machine program) (fuel : Nat) : Simulates machine program fuel := by
  induction fuel with
  | zero => exact fun _ _ _ _ _ => ⟨0, _, Nat.le_refl _, .stay⟩
  | succ fuel hs =>
    intro place statement e start own entered store hd hc ho hn
    cases hd with
    | loop shaped inside => exact follows_loop hs hl shaped inside hc ho hn
    | assign shaped =>
      obtain rfl : entered = own := by rcases hn with hn | ⟨_, _, _, ⟨⟩, _⟩; exact hn
      rw [Program.exec, shaped]
      rw [Statement.lower] at hc ⊢
      exact follows_assign hl hc.cons.1
    | command shaped =>
      obtain rfl : entered = own := by rcases hn with hn | ⟨_, _, _, ⟨⟩, _⟩; exact hn
      rw [Program.exec, shaped]
      rw [Statement.lower] at hc ⊢
      exact follows_command hs hl ho hc.cons.1
    | guarded shaped inside =>
      obtain rfl : entered = own := by rcases hn with hn | ⟨_, _, _, ⟨⟩, _⟩; exact hn
      rw [Program.exec, shaped]
      exact follows_guarded hs hl inside hc ho
    | choice shaped inside beside =>
      obtain rfl : entered = own := by rcases hn with hn | ⟨_, _, _, ⟨⟩, _⟩; exact hn
      rw [Program.exec, shaped]
      exact follows_choice hs hl inside beside hc ho

end

end ScriptEngine.Direct
