import ScriptEngine.Proofs.Command.Matching
import ScriptEngine.Proofs.Machine.Effects
import ScriptEngine.Proofs.Machine.Failures
import ScriptEngine.Proofs.Machine.Results

/-!
# Failed commands and degraded calls

Some commands change the context before they can fail: the result of a frame is set before the frame is
left, and a loop is removed before the frame goes behind it. `failed_dispatch_leaves_no_trace` says that
this never shows, provided that only the outermost frame has no place to return to and that every loop
belongs to a frame.

Calls do not fail at all. `Machine.dispatch_call` says what becomes of one: a frame is added if there is
room for it, or nothing changes. So the number of frames keeps within its limit in every state of a run
(`Engine.Reachable.depth_le`), and a call that cannot start is passed over
(`calls_never_fail_and_nesting_is_bounded`).
-/

namespace ScriptEngine

variable {machine : Machine} {identity : String} {frame : Frame} {callers : List Frame}
  {loops : List LoopContext} {timers : Dictionary Timer} {world : World} {state after : State}
  {site : CallSite} {cause : Cause}

/-- A frame that is the outermost one or knows where its caller goes on can be left. -/
theorem Context.leave_ok (identity : String) (loops : List LoopContext) (timers : Dictionary Timer)
    (h : callers ≠ [] → frame.resume.isSome) :
    ∃ left context, (⟨identity, frame :: callers, loops, timers⟩ : Context).leave =
      (.ok left, context) := by
  cases callers with
  | nil => exact ⟨_, _, leave_outermost⟩
  | cons caller others =>
    obtain ⟨resume, hr⟩ := Option.isSome_iff_exists.mp (h (List.cons_ne_nil _ _))
    exact ⟨_, _, leave_callee hr⟩

/-- Without a frame there is no loop to leave if all loops belong to a frame. -/
theorem Context.currentLoop?_noFrame (h : ∀ loop ∈ loops, 1 ≤ loop.depth) :
    (⟨identity, [], loops, timers⟩ : Context).currentLoop? = none := by
  cases loops with
  | nil => rfl
  | cons loop outer =>
    have hd := h loop (List.mem_cons_self ..)
    simp only [currentLoop?, depth, List.head?_cons, Option.filter_some, List.length_nil, beq_iff_eq,
      show ¬ loop.depth = 0 by omega, if_false]

theorem Machine.perform_noFrame_error {now : Nat} {action : Action}
    (hl : ∀ loop ∈ loops, 1 ≤ loop.depth)
    (h : machine.perform site now action ⟨⟨identity, [], loops, timers⟩, world⟩ =
      (.error cause, after)) : after = ⟨⟨identity, [], loops, timers⟩, world⟩ := by
  have hn : (⟨identity, [], loops, timers⟩ : Context).currentLoop? = none :=
    Context.currentLoop?_noFrame hl
  cases action with
  | value v => cases h
  | print message => cases h
  | secondsPassed => cases h; rfl
  | breakLoop =>
    simp only [perform, Context.breakOut, Context.popLoop, hn] at h
    cases h
    rfl
  | continueLoop =>
    simp only [perform, Context.continueLoop, hn] at h
    cases h
    rfl
  | finish v => cases h; rfl
  | call target arguments =>
    simp only [perform] at h
    split at h
    · cases h
      rfl
    · cases h

theorem Machine.perform_error {now : Nat} {action : Action}
    (hr : callers ≠ [] → frame.resume.isSome)
    (h : machine.perform site now action ⟨⟨identity, frame :: callers, loops, timers⟩, world⟩ =
      (.error cause, after)) : after = ⟨⟨identity, frame :: callers, loops, timers⟩, world⟩ := by
  cases action with
  | value v => cases h
  | print message => cases h
  | secondsPassed => cases h
  | breakLoop =>
    rw [perform_breakLoop] at h
    cases ho : ownLoop? (callers.length + 1) loops with
    | none =>
      rw [ho] at h
      cases h
      rfl
    | some loop =>
      rw [ho] at h
      cases h
  | continueLoop =>
    simp only [perform, State.attempt] at h
    split at h
    · cases h
    · cases h
      rfl
  | finish v =>
    -- The result has been set, but the frame can be left.
    have hr' : callers ≠ [] → { frame with pending := some v }.resume.isSome := hr
    obtain ⟨left, context, hleave⟩ := Context.leave_ok identity loops timers hr'
    simp only [perform, Context.setPending, Context.updateFrame, State.leave, hleave] at h
    cases h
  | call target arguments =>
    rw [perform_call] at h
    cases hs : machine.startOf site target arguments (callers.length + 1) with
    | inl degraded =>
      rw [hs] at h
      cases h
    | inr started =>
      rw [hs] at h
      cases h

/-- A failed command leaves no trace. Whatever the command, its arguments and the stacks, provided that
all frames above the outermost one know where their callers go on and that every loop belongs to a frame:
if carrying out the command fails, then frames, loops and timers are as before, and nothing has been
offered to the console. -/
theorem failed_dispatch_leaves_no_trace {name : String} {arguments : List Value}
    (hresume : ∀ frame ∈ state.context.frames.dropLast, frame.resume.isSome)
    (hloops : ∀ loop ∈ state.context.loops, 1 ≤ loop.depth)
    (h : machine.dispatch site name arguments state = (.error cause, after)) :
    after.context = state.context ∧ after.world.console = state.world.console := by
  obtain ⟨⟨identity, frames, loops, timers⟩, world⟩ := state
  have hconsole := machine.commands.request_console identity name arguments world
  rw [Machine.dispatch_eq] at h
  dsimp only at h hresume hloops
  generalize machine.commands.request identity name arguments world = request at h hconsole
  obtain ⟨answer, world'⟩ := request
  cases answer with
  | error cause =>
    cases h
    exact ⟨rfl, hconsole⟩
  | ok action =>
    have hafter : after = ⟨⟨identity, frames, loops, timers⟩, world'⟩ := by
      cases frames with
      | nil => exact Machine.perform_noFrame_error hloops h
      | cons frame callers =>
        refine Machine.perform_error (fun hc => hresume frame ?_) h
        rw [List.dropLast_cons_of_ne_nil hc]
        exact List.mem_cons_self ..
    subst hafter
    exact ⟨rfl, hconsole⟩

/-- A script that was called from within a loop, and its caller. -/
def visit : State where
  context :=
    { identity := "host"
      frames :=
        [{ script := ⟨"guest", "guest.script.xml", [], .multi, []⟩
           resume := some ⟨2, none, .multi⟩ },
          { script := ⟨"host", "host.script.xml", [], .multi, []⟩, ip := 1 }]
      loops := [⟨0, 3, 1⟩]
      timers := .empty }

/-- The called script cannot leave the loop of its caller, which stays. -/
theorem visit_keeps_loop_of_caller :
    let machine : Machine := { commands := .general, scripts := .empty }
    ∃ after, machine.dispatch {} "Break" [] visit = (.error (.outsideLoop .breakOut), after) ∧
      after.context = visit.context ∧ after.world.console = visit.world.console := by
  intro machine
  have hd : machine.dispatch {} "Break" [] visit =
      (.error (.outsideLoop .breakOut), (machine.dispatch {} "Break" [] visit).2) := rfl
  exact ⟨_, hd, failed_dispatch_leaves_no_trace (by decide) (by decide) hd⟩

/-! ## Calls -/

/-- What becomes of a call whose target is a text: it starts or leaves the context as it was. -/
theorem Machine.dispatch_call {name target : String} {arguments : List Value}
    (h : machine.commands.lookup name = some General.callCommand) :
    machine.dispatch site name (.string target :: arguments)
        ⟨⟨identity, frame :: callers, loops, timers⟩, world⟩ =
      match machine.startOf site target arguments (callers.length + 1) with
      | .inl (value, fault) =>
        (.ok (.degraded value fault),
          ⟨⟨identity, frame :: callers, loops, timers⟩, world.readClock.2⟩)
      | .inr (script, locals, expected) =>
        (.ok .transferred, ⟨⟨identity,
          { script, locals, resume := some ⟨frame.ip + 1, site.result, expected⟩ } ::
            frame :: callers, loops, timers⟩, world.readClock.2⟩) := by
  rw [dispatch_eq, CommandTable.request_call h]
  exact perform_call ..

/-- A script takes exactly the arguments that go with its parameters. -/
theorem Machine.canStart_iff {target : String} {arguments : List Value} {depth : Nat} :
    machine.CanStart target arguments depth ↔
      ∃ script, machine.scripts.get? target = some script ∧ depth < machine.depthLimit ∧
        Suits script.signature arguments := by
  constructor
  · rintro ⟨script, bindings, hs, hd, hb⟩
    exact ⟨script, hs, hd, (bindParameters_ok_iff.mp hb).1⟩
  · rintro ⟨script, hs, hd, hb⟩
    exact ⟨script, _, hs, hd, bindParameters_ok_iff.mpr ⟨hb, rfl⟩⟩

/-- A call transfers control if it can start, and else is degraded and changes nothing. -/
theorem Machine.dispatched_call {name target : String} {arguments : List Value}
    {result : Except Cause Dispatched} (hf : state.context.frames = frame :: callers)
    (hcall : machine.commands.lookup name = some General.callCommand)
    (h : machine.dispatch site name (.string target :: arguments) state = (result, after)) :
    (result = .ok .transferred ∧ machine.CanStart target arguments state.context.depth) ∨
      ∃ value fault, result = .ok (.degraded value fault) ∧
        ¬ machine.CanStart target arguments state.context.depth ∧
        after = { state with world := state.world.readClock.2 } := by
  obtain ⟨⟨identity, frames, loops, timers⟩, world⟩ := state
  dsimp only at hf
  subst hf
  rw [dispatch_call hcall] at h
  cases hs : machine.startOf site target arguments (callers.length + 1) with
  | inl degraded =>
    rw [hs] at h
    cases h
    exact .inr ⟨_, _, rfl, (startOf_degraded hs).2, rfl⟩
  | inr started =>
    rw [hs] at h
    cases h
    exact .inl ⟨rfl, (startOf_started hs).2⟩

/-- The step of a command that is degraded to a value goes on behind the command. -/
theorem Machine.step_degraded {use : CommandUse} {span : Span} {arguments : List Value}
    {value : Value} {fault : CallFault} {world : World}
    (hf : state.context.frames = frame :: callers)
    (hi : frame.script.instructions[frame.ip]? = some ⟨.command use, span⟩)
    (ha : use.arguments.mapM (machine.evaluate · frame.locals) = .ok arguments)
    (hd : machine.dispatch ⟨use.result, use.expect⟩ use.name arguments state =
      (.ok (.degraded value fault), { state with world })) :
    machine.step state = (.running (some ⟨.call fault, some span⟩),
      ⟨{ state.context with
        frames :=
          { frame with
            ip := frame.ip + 1
            locals := (use.result.map (frame.locals.insert · value)).getD frame.locals } ::
          callers }, world⟩) := by
  obtain ⟨⟨identity, frames, loops, timers⟩, world'⟩ := state
  dsimp only at hf
  subst hf
  rw [step_at machine rfl hi, stepAt_command, ha]
  simp only [hd, settle]
  exact stored_eq ..

theorem Move.length_le {frames' : List Frame} {loops' : List LoopContext}
    (h : Move machine frame callers loops frames' loops') :
    frames'.length ≤ max (callers.length + 1) machine.depthLimit := by
  cases h with
  | call locals expected stands loaded room =>
    simp only [List.length_cons]
    omega
  | finish value called =>
    subst called
    simp only [List.length_cons]
    omega
  | _ => exact Nat.le_max_left ..

/-- In every state of a run there are no more frames than are allowed. -/
theorem Engine.Reachable.depth_le {engine : Engine} (h : engine.Reachable state)
    (hl : 1 ≤ engine.machine.depthLimit) : state.context.depth ≤ engine.machine.depthLimit := by
  refine h.keeps (P := fun state => state.context.depth ≤ engine.machine.depthLimit)
    (fun _ _ _ _ _ _ => hl) fun before after hb hg => ?_
  obtain ⟨frame, callers, hf⟩ := hg.frames
  have hm := (hg.move hf).length_le
  simp only [Context.depth, hf, List.length_cons] at hb ⊢
  omega

theorem Engine.Reachable.frames {engine : Engine} (h : engine.Reachable state) :
    ∃ frame callers, state.context.frames = frame :: callers := by
  have hr := h.resumable
  cases hf : state.context.frames with
  | nil =>
    rw [hf] at hr
    exact hr.elim
  | cons frame callers => exact ⟨frame, callers, rfl⟩

/-- Calls never fail, and their nesting is bounded. In every state of a run there are at most as many
frames as the limit says, where 0 counts as 1. A call whose target is a text either transfers control or
is degraded. It transfers control exactly if there is a script of that name, there is room for one more
frame, and the arguments go with the parameters of the script. A degraded call leaves the stacks, the
timers and the console as they were, and if the innermost frame stands at it, the run goes on with the
next instruction. -/
theorem calls_never_fail_and_nesting_is_bounded {scripts : Dictionary Script}
    {options : EngineOptions} {engine : Engine} (hbuilt : Engine.build scripts options = .ok engine)
    (hreach : engine.Reachable state) :
    state.context.depth ≤ max 1 options.depth ∧
    ∀ name, options.commands.lookup name = some General.callCommand →
      ∀ site target arguments result after,
        engine.machine.dispatch site name (.string target :: arguments) state = (result, after) →
        (result = .ok .transferred ∨ ∃ value fault, result = .ok (.degraded value fault)) ∧
        (result = .ok .transferred ↔ ∃ script, scripts.get? target = some script ∧
          state.context.depth < max 1 options.depth ∧ Suits script.signature arguments) ∧
        ∀ value fault, result = .ok (.degraded value fault) →
          after.context = state.context ∧ after.world.console = state.world.console ∧
          ∀ frame callers use span, state.context.frames = frame :: callers →
            frame.script.instructions[frame.ip]? = some ⟨.command use, span⟩ →
            use.name = name → ⟨use.result, use.expect⟩ = site →
            use.arguments.mapM (options.evaluate · frame.locals) = .ok (.string target :: arguments) →
            engine.machine.step state = (.running (some ⟨.call fault, some span⟩),
              ⟨{ state.context with
                frames :=
                  { frame with
                    ip := frame.ip + 1
                    locals := (use.result.map (frame.locals.insert · value)).getD frame.locals } ::
                  callers }, after.world⟩) := by
  obtain ⟨-, rfl⟩ := Engine.build_ok hbuilt
  obtain ⟨frame, callers, hf⟩ := hreach.frames
  refine ⟨hreach.depth_le (Nat.le_max_left ..), ?_⟩
  intro name hcall site target arguments result after h
  rcases Machine.dispatched_call hf hcall h with ⟨rfl, hc⟩ | ⟨value, fault, rfl, hn, rfl⟩
  · exact ⟨.inl rfl, ⟨fun _ => Machine.canStart_iff.mp hc, fun _ => rfl⟩, nofun⟩
  · refine ⟨.inr ⟨value, fault, rfl⟩, ⟨nofun, fun hc => absurd (Machine.canStart_iff.mpr hc) hn⟩, ?_⟩
    rintro _ _ ⟨⟩
    refine ⟨rfl, rfl, ?_⟩
    rintro frame callers use span hf hi rfl rfl ha
    exact Machine.step_degraded hf hi ha h

/-- A script that calls itself and returns what it gets. -/
def echoes : Dictionary Script := .ofList
  [("echo", ⟨"echo", "echo.script.xml", [], .string,
    [⟨.command ⟨"call", ["echo"], some "x", none⟩, .atLine 1⟩,
      ⟨.command ⟨"return", ["x"], none, none⟩, .atLine 2⟩]⟩)]

/-- Two frames are allowed, and every expression stands for itself. -/
def echoOptions : EngineOptions where
  depth := 2
  evaluate expression _ := .ok (.string expression)

/-- An engine for the script. -/
def echo : Engine where
  machine := ⟨.general, echoes, 2, echoOptions.evaluate⟩
  stepLimit := 100000

/-- The state after the first call. -/
def echoNested : State :=
  let entry := (echoes.get? "echo").getD ⟨"", "", [], .multi, []⟩
  (echo.machine.step ⟨Context.start entry .empty, {}⟩).2

/-- The second call finds no room and is passed over. -/
theorem echo_passes_over_second_call :
    Engine.build echoes echoOptions = .ok echo ∧ echo.Reachable echoNested ∧
      echoNested.context.depth = 2 ∧
      ∃ frame callers, echoNested.context.frames = frame :: callers ∧ frame.ip = 0 ∧
        echo.machine.step echoNested =
          (.running (some ⟨.call (.tooDeep "echo" 2), some (.atLine 1)⟩),
            ⟨{ echoNested.context with
              frames :=
                { frame with ip := 1, locals := frame.locals.insert "x" (.string "") } :: callers },
              echoNested.world.readClock.2⟩) := by
  have hb : Engine.build echoes echoOptions = .ok echo := rfl
  have hreach : echo.Reachable echoNested :=
    ⟨"echo", [], _, .empty, {}, rfl, .single ⟨none, Prod.ext (by decide +kernel) rfl⟩⟩
  have hd : echo.machine.dispatch ⟨some "x", none⟩ "call" [.string "echo"] echoNested =
      (.ok (.degraded (.string "") (.tooDeep "echo" 2)),
        { echoNested with world := echoNested.world.readClock.2 }) := rfl
  obtain ⟨-, hcalls⟩ := calls_never_fail_and_nesting_is_bounded hb hreach
  obtain ⟨-, -, hdegraded⟩ := hcalls "call" rfl _ "echo" [] _ _ hd
  obtain ⟨-, -, hstep⟩ := hdegraded _ _ rfl
  exact ⟨hb, hreach, rfl, _, _, rfl, rfl, hstep _ _ _ _ rfl rfl rfl rfl rfl⟩

end ScriptEngine
