import ScriptEngine.Proofs.Direct.Reading

/-!
# Where the machine stands while a script is interpreted

A `Place` is what stays the same for the machine while one script runs: the script, the frames that wait
for it and their loops. With an index, the loops of the script and a `Store` it gives the state of the
machine (`Place.state`). The lemmas say what one step does to such a state, in terms of the store:
`Place.step_eq` for an instruction, `Place.takes_value` and its companions for the results of a command,
`Place.step_finish` and `Place.step_behind` for the end of the script.
-/

namespace ScriptEngine.Direct

/-- The expression that an operation other than a command evaluates. -/
def expression? : Operation → Option String
  | .assign _ expression | .branch expression _ | .loopStart expression _ => some expression
  | _ => none

/-- A frame that waits for the end of a call, and the frames below it. -/
structure Waiting where
  resume : ResumePoint
  frame : Frame
  others : List Frame

/-- The frames that wait, innermost first. -/
def Waiting.frames : Option Waiting → List Frame
  | none => []
  | some waiting => waiting.frame :: waiting.others

/-- A script that the machine runs, and what lies below it. -/
structure Place where
  identity : String
  script : Script
  waiting : Option Waiting
  /-- The loops of the frames that wait. -/
  outer : List LoopContext
  below : ∀ loop ∈ outer, loop.depth ≤ (Waiting.frames waiting).length

namespace Place

variable {machine : Machine} {place : Place} {ip : Nat} {own : List LoopContext} {store : Store}

/-- The number of frames. -/
def depth (place : Place) : Nat :=
  (Waiting.frames place.waiting).length + 1

/-- The frame of the script. -/
def frame (place : Place) (ip : Nat) (locals : Dictionary Value) (pending : Option Value) : Frame :=
  ⟨place.script, ip, locals, pending, place.waiting.map (·.resume)⟩

/-- The state in which the machine stands at an index of the script. -/
def state (place : Place) (ip : Nat) (own : List LoopContext) (store : Store) : State :=
  ⟨⟨place.identity, place.frame ip store.locals none :: Waiting.frames place.waiting,
    own ++ place.outer, store.timers⟩, store.world⟩

/-- How the interpretation sees the place. -/
def scope (place : Place) (own : List LoopContext) : Scope :=
  ⟨place.identity, place.script.name, place.depth, !own.isEmpty⟩

/-- Loops that the script has entered, all of which begin before an index. -/
def Owns (place : Place) (start : Nat) (own : List LoopContext) : Prop :=
  ∀ loop ∈ own, loop.depth = place.depth ∧ loop.recheck < start

theorem Owns.mono {start start' : Nat} (h : place.Owns start own) (hs : start ≤ start') :
    place.Owns start' own :=
  fun loop hm => ⟨(h loop hm).1, Nat.lt_of_lt_of_le (h loop hm).2 hs⟩

theorem Owns.nil {start : Nat} : place.Owns start [] :=
  fun _ hm => absurd hm List.not_mem_nil

/-- A loop that begins at an index is entered. -/
theorem Owns.cons {start : Nat} {loop : LoopContext} (h : place.Owns start own)
    (hd : loop.depth = place.depth) (hr : loop.recheck = start) :
    place.Owns (start + 1) (loop :: own) := by
  intro entered hm
  rcases List.mem_cons.mp hm with rfl | hm
  · exact ⟨hd, hr ▸ Nat.lt_succ_self _⟩
  · exact h.mono (Nat.le_succ _) entered hm

/-- The step that ends the script, and the state after it. -/
def left (place : Place) (value : Value) (span : Option Span) (store : Store) : Progress × State :=
  match place.waiting with
  | none => (.finished value, ⟨⟨place.identity, [], place.outer, store.timers⟩, store.world⟩)
  | some waiting =>
    (.running ((Context.discardedType waiting.resume.expected value).map fun type =>
        ⟨.call (.discarded place.script.name type waiting.resume.expected), span⟩),
      ⟨⟨place.identity, waiting.frame.deliver waiting.resume value :: waiting.others, place.outer,
        store.timers⟩, store.world⟩)

theorem step_eq {instruction : Instruction}
    (hi : place.script.instructions[ip]? = some instruction) :
    machine.step (place.state ip own store) =
      machine.stepAt instruction (place.state ip own store) :=
  Machine.step_at machine rfl hi

theorem observe_eq {instruction : Instruction}
    (hi : place.script.instructions[ip]? = some instruction) :
    machine.observe (place.state ip own store) =
      machine.operationEvents place.identity (place.frame ip store.locals none) store.timers
        store.world instruction.operation := by
  have ho : (place.frame ip store.locals none).operation? = some instruction.operation := by
    rw [Frame.operation?]
    exact congrArg _ hi
  simp only [Machine.observe, state, ho]

theorem observe_behind (hi : place.script.instructions[ip]? = none) :
    machine.observe (place.state ip own store) = [] := by
  have ho : (place.frame ip store.locals none).operation? = none := by
    rw [Frame.operation?]
    exact congrArg _ hi
  simp only [Machine.observe, state, ho]

/-- The events of an operation that evaluates an expression of its own. -/
theorem observe_expression {operation : Operation} {span : Span} {expression : String}
    (hi : place.script.instructions[ip]? = some ⟨operation, span⟩)
    (hx : expression? operation = some expression) :
    machine.observe (place.state ip own store) = [.evaluated expression store.locals] := by
  rw [observe_eq hi]
  cases operation <;> simp only [expression?, Option.some.injEq, reduceCtorEq] at hx <;>
    subst hx <;> rfl

theorem step_error {operation : Operation} {span : Span} {expression : String} {cause : Cause}
    (hi : place.script.instructions[ip]? = some ⟨operation, span⟩)
    (hx : expression? operation = some expression)
    (hv : machine.evaluate expression store.locals = .error cause) :
    machine.step (place.state ip own store) =
      (.failed ⟨cause, some span⟩, place.state ip own store) := by
  rw [step_eq hi, Machine.stepAt]
  cases operation <;> simp only [expression?, Option.some.injEq, reduceCtorEq] at hx <;> subst hx
  · simp only [Machine.execute, state, Machine.assign_eq, frame, hv, Except.map, State.attempt]
  · simp only [Machine.execute, state, Machine.branch_eq, frame, hv, Except.map, State.attempt]
  · rename_i condition exit
    have hl : machine.loopStart condition exit (place.state ip own store).context = .error cause :=
      Machine.loopStart_error machine hv
    simp only [Machine.execute, hl, State.attempt]

theorem step_assign {target expression : String} {span : Span} {value : Value}
    (hi : place.script.instructions[ip]? = some ⟨.assign target expression, span⟩)
    (hv : machine.evaluate expression store.locals = .ok value) :
    machine.step (place.state ip own store) =
      (.running none, place.state (ip + 1) own (store.give (some target) value)) := by
  rw [step_eq hi, Machine.stepAt, state]
  simp only [Machine.execute, Machine.assign_eq, frame, hv, Except.map, State.attempt]
  rfl

theorem step_branch {condition : String} {otherwise : Nat} {span : Span} {value : Value}
    (hi : place.script.instructions[ip]? = some ⟨.branch condition otherwise, span⟩)
    (hv : machine.evaluate condition store.locals = .ok value) :
    machine.step (place.state ip own store) =
      (.running none, place.state (if value.isTruthy then ip + 1 else otherwise) own store) := by
  rw [step_eq hi, Machine.stepAt, state]
  simp only [Machine.execute, Machine.branch_eq, frame, hv, Except.map, State.attempt]
  rfl

/-- A jump, or the way back to the beginning of a loop. -/
theorem step_goto {operation : Operation} {target : Nat} {span : Span}
    (hi : place.script.instructions[ip]? = some ⟨operation, span⟩)
    (ho : operation = .jump target ∨ operation = .loopEnd target) :
    machine.step (place.state ip own store) = (.running none, place.state target own store) ∧
      machine.observe (place.state ip own store) = [] := by
  rw [step_eq hi, observe_eq hi]
  rcases ho with rfl | rfl <;> exact ⟨rfl, rfl⟩

/-- A loop that begins at an index is none of those that were entered before. -/
theorem Owns.not_in_loop {start : Nat} (ho : place.Owns start own) :
    inOwnLoop place.depth start (own ++ place.outer) = false := by
  rw [inOwnLoop]
  cases own with
  | nil =>
    have hn : ownLoop? place.depth place.outer = none :=
      ownLoop?_eq_none fun loop hm => Nat.lt_succ_of_le (place.below loop hm)
    rw [List.nil_append, hn]
    rfl
  | cons loop rest =>
    have hl := ho loop (List.mem_cons_self ..)
    rw [List.cons_append, ownLoop?_cons hl.1, Option.any_some, beq_eq_false_iff_ne]
    omega

/-- The test of a loop that is entered, or that has come back to its beginning. -/
theorem step_loopStart {condition : String} {exit : Nat} {span : Span} {value : Value}
    {entered : List LoopContext}
    (hi : place.script.instructions[ip]? = some ⟨.loopStart condition exit, span⟩)
    (ho : place.Owns ip own) (he : entered = own ∨ entered = ⟨ip, exit, place.depth⟩ :: own)
    (hv : machine.evaluate condition store.locals = .ok value) :
    machine.step (place.state ip entered store) =
      (.running none, if value.isTruthy then
        place.state (ip + 1) (⟨ip, exit, place.depth⟩ :: own) store
      else place.state exit own store) := by
  have hl : machine.loopStart condition exit (place.state ip entered store).context =
      .ok (if value.isTruthy then place.state (ip + 1) (⟨ip, exit, place.depth⟩ :: own) store
        else place.state exit own store).context := by
    cases ht : value.isTruthy with
    | true =>
      rcases he with rfl | rfl
      · exact Machine.loopStart_enter machine hv ht ho.not_in_loop
      · have hr : inOwnLoop place.depth ip (⟨ip, exit, place.depth⟩ :: (own ++ place.outer)) = true :=
          inOwnLoop_iff.mpr ⟨_, _, rfl, rfl, rfl⟩
        exact Machine.loopStart_repeat machine hv ht hr
    | false =>
      rcases he with rfl | rfl
      · exact Machine.loopStart_skip machine hv ht ho.not_in_loop
      · exact Machine.loopStart_leave machine hv ht rfl rfl
  rw [step_eq hi, Machine.stepAt, Machine.execute, hl, State.attempt]
  cases value.isTruthy <;> rfl

theorem filter_own (ho : ∀ loop ∈ own, loop.depth = place.depth) :
    (own ++ place.outer).filter (·.depth ≤ (Waiting.frames place.waiting).length) = place.outer :=
  filter_above place.below fun loop hm => by rw [ho loop hm, depth]; exact Nat.lt_succ_self _

/-- The end of the frame of a script, as the end of its last step. -/
theorem leave_left (ip : Nat) (store : Store) (ho : ∀ loop ∈ own, loop.depth = place.depth)
    (pending : Option Value) :
    (∃ value after, (⟨place.identity,
        place.frame ip store.locals pending :: Waiting.frames place.waiting, own ++ place.outer,
        store.timers⟩ : Context).leave = (.ok (.finished value), after) ∧
      ∀ span, place.left (pending.getD .invalid) span store =
        (.finished value, ⟨after, store.world⟩)) ∨
    ∃ fault after, (⟨place.identity,
        place.frame ip store.locals pending :: Waiting.frames place.waiting, own ++ place.outer,
        store.timers⟩ : Context).leave = (.ok (.returned fault), after) ∧
      ∀ span, place.left (pending.getD .invalid) span store =
        (.running (fault.map fun fault => ⟨.call fault, span⟩), ⟨after, store.world⟩) := by
  obtain ⟨identity, script, waiting, outer, below⟩ := place
  cases waiting with
  | none =>
    have hf : (own ++ outer).filter (·.depth ≤ 0) = outer := filter_own ho
    refine .inl ⟨_, _, Context.leave_outermost, fun span => ?_⟩
    simp only [left, frame, hf]
  | some waiting =>
    have hf : (own ++ outer).filter (·.depth ≤ (waiting.frame :: waiting.others).length) = outer :=
      filter_own ho
    refine .inr ⟨_, _, Context.leave_callee rfl, fun span => ?_⟩
    simp only [left, frame, hf, Option.map_map]
    rfl

/-- The script ends behind its last instruction. -/
theorem step_behind (ho : ∀ loop ∈ own, loop.depth = place.depth)
    (hi : place.script.instructions[ip]? = none) :
    machine.step (place.state ip own store) = place.left .invalid none store := by
  rw [Machine.step_behind machine rfl hi, Machine.stepOut, State.leave]
  rcases leave_left ip store ho none with ⟨value, after, hl, hs⟩ | ⟨fault, after, hl, hs⟩
  · exact (hs none).symm ▸ by simp only [state, hl]
  · exact (hs none).symm ▸ by simp only [state, hl]

/-! ## Commands -/

theorem step_command {use : CommandUse} {span : Span} {arguments : List Value} {action : Action}
    {world : World} (hi : place.script.instructions[ip]? = some ⟨.command use, span⟩)
    (ha : use.arguments.mapM (machine.evaluate · store.locals) = .ok arguments)
    (hq : machine.commands.request place.identity use.name arguments store.world =
      (.ok action, world)) :
    machine.step (place.state ip own store) =
      Machine.settle use span (machine.perform ⟨use.result, use.expect⟩ store.world.readClock.1 action
        (place.state ip own { store with world })) := by
  rw [step_eq hi, state, Machine.stepAt_command]
  simp only [frame, ha, Machine.dispatch_eq, hq]
  rfl

theorem stored_eq (slot : Option String) (value : Value) (degraded : Option Fault) (span : Span) :
    Machine.stored slot value degraded span (place.state ip own store) =
      (.running degraded, place.state (ip + 1) own (store.give slot value)) := by
  rw [Machine.stored, state, Machine.store_eq]
  rfl

theorem perform_print {site : CallSite} {now : Nat} (message : String) :
    machine.perform site now (.print message) (place.state ip own store) =
      (.ok (.value .invalid), place.state ip own
        ({ store with world := store.world.print message }.see [.printed message])) := rfl

theorem perform_secondsPassed {site : CallSite} {now : Nat} :
    machine.perform site now .secondsPassed (place.state ip own store) =
      let ticked := tickOf store.timers place.script.name now
      (.ok (.value (.numeric (secondsOf ticked.1))), place.state ip own
        ({ store with timers := store.timers.insert place.script.name ticked.2 }.see
          [.ticked place.script.name ticked.2])) := rfl

theorem perform_breakLoop {loop : LoopContext} {rest : List LoopContext} {site : CallSite} {now : Nat}
    (hd : loop.depth = place.depth) :
    machine.perform site now .breakLoop (place.state ip (loop :: rest) store) =
      (.ok .transferred, place.state loop.exit rest store) := by
  have hd : loop.depth = (Waiting.frames place.waiting).length + 1 := hd
  rw [state, List.cons_append, Machine.perform_breakLoop, ownLoop?_cons hd]
  rfl

theorem perform_continueLoop {loop : LoopContext} {rest : List LoopContext} {site : CallSite}
    {now : Nat} (hd : loop.depth = place.depth) :
    machine.perform site now .continueLoop (place.state ip (loop :: rest) store) =
      (.ok .transferred, place.state loop.recheck (loop :: rest) store) := by
  have hb : (place.state ip (loop :: rest) store).context.continueLoop =
      .ok (place.state loop.recheck (loop :: rest) store).context := Context.continueLoop_own hd
  rw [Machine.perform, hb]
  rfl

/-- No loop of the script is under way. -/
theorem ownLoop?_outer : ownLoop? place.depth ([] ++ place.outer) = none :=
  ownLoop?_eq_none fun loop hm => Nat.lt_succ_of_le (place.below loop hm)

theorem perform_breakLoop_outside {site : CallSite} {now : Nat} :
    machine.perform site now .breakLoop (place.state ip [] store) =
      (.error (.outsideLoop .breakOut), place.state ip [] store) := by
  have ho : ownLoop? ((Waiting.frames place.waiting).length + 1) ([] ++ place.outer) = none :=
    ownLoop?_outer
  rw [state, Machine.perform_breakLoop, ho]

theorem perform_continueLoop_outside {site : CallSite} {now : Nat} :
    machine.perform site now .continueLoop (place.state ip [] store) =
      (.error (.outsideLoop .resume), place.state ip [] store) := by
  have hb : (place.state ip [] store).context.continueLoop = .error (.outsideLoop .resume) :=
    Context.continueLoop_outside ownLoop?_outer
  rw [Machine.perform, hb]
  rfl

/-- The script ends with a command. -/
theorem settle_finish (ho : ∀ loop ∈ own, loop.depth = place.depth) {site : CallSite} {now : Nat}
    {use : CommandUse} {span : Span} (value : Value) :
    Machine.settle use span (machine.perform site now (.finish value) (place.state ip own store)) =
      place.left value (some span) store := by
  have hp : machine.perform site now (.finish value) (place.state ip own store) =
      (⟨⟨place.identity, place.frame ip store.locals (some value) :: Waiting.frames place.waiting,
        own ++ place.outer, store.timers⟩, store.world⟩ : State).leave := rfl
  rw [hp, State.leave]
  rcases leave_left ip store ho (some value) with ⟨result, after, hl, hs⟩ | ⟨fault, after, hl, hs⟩
  · exact (hs (some span)).symm ▸ by simp only [hl, Machine.settle]
  · exact (hs (some span)).symm ▸ by simp only [hl, Machine.settle]

/-- The place of a script that is called at an index of another one. -/
def callee (place : Place) (ip : Nat) (own : List LoopContext)
    (ho : ∀ loop ∈ own, loop.depth = place.depth) (store : Store) (script : Script)
    (slot : Option String) (expected : DataType) : Place where
  identity := place.identity
  script
  waiting := some ⟨⟨ip + 1, slot, expected⟩, place.frame ip store.locals none,
    Waiting.frames place.waiting⟩
  outer := own ++ place.outer
  below loop hm := by
    rcases List.mem_append.mp hm with hm | hm
    · exact Nat.le_of_eq (ho loop hm)
    · exact Nat.le_succ_of_le (place.below loop hm)

theorem perform_call {target : String} {arguments : List Value} {script : Script}
    {locals : Dictionary Value} {expected : DataType} {use : CommandUse} {now : Nat}
    (ho : ∀ loop ∈ own, loop.depth = place.depth)
    (hs : machine.startOf ⟨use.result, use.expect⟩ target arguments place.depth =
      .inr (script, locals, expected)) :
    machine.perform ⟨use.result, use.expect⟩ now (.call target arguments) (place.state ip own store) =
      (.ok .transferred,
        (place.callee ip own ho store script use.result expected).state 0 [] { store with locals }) := by
  rw [state, Machine.perform_call, show (Waiting.frames place.waiting).length + 1 =
    place.depth from rfl, hs]
  rfl

theorem perform_degraded_call {target : String} {arguments : List Value} {value : Value}
    {fault : CallFault} {site : CallSite} {now : Nat}
    (hs : machine.startOf site target arguments place.depth = .inl (value, fault)) :
    machine.perform site now (.call target arguments) (place.state ip own store) =
      (.ok (.degraded value fault), place.state ip own store) := by
  rw [state, Machine.perform_call, show (Waiting.frames place.waiting).length + 1 =
    place.depth from rfl, hs]

/-- The caller goes on when the script that it called has ended. -/
theorem callee_left (ho : ∀ loop ∈ own, loop.depth = place.depth) (after : Store)
    {document : Document} {script : Script} {slot : Option String} {expected : DataType}
    (hn : script.name = document.name) (value : Value) (span : Option Span) :
    ∃ degraded, (place.callee ip own ho store script slot expected).left value span after =
        (.running degraded, place.state (ip + 1) own
          (Program.deliver store after document slot expected value span)) ∧
      (Program.deliver store after document slot expected value span).log =
        after.log.add [] degraded := by
  refine ⟨_, Prod.ext rfl ?_, by rw [Program.deliver, ← hn]; rfl⟩
  cases slot <;> rfl

end Place

end ScriptEngine.Direct
