import ScriptEngine.Proofs.Machine.Equations

/-!
# What the general commands ask for

`General.Answers` lists what each general command asks for when it is given some arguments, or how it
fails, and `CommandTable.answers_general` says that there is nothing else. In particular the arguments
that a handler looks at have been matched before, so it finds them all and of the right types
(`General.Answers.reads`). Only one command ends a frame (`General.Answers.of_finish`). The general commands
do not tell who started the run (`CommandTable.request_general`), and neither do they look at the time or
at anything else around it (`CommandTable.request_timeless`).
-/

namespace ScriptEngine

theorem CommandTable.mem_of_lookup {table : CommandTable} {name : String} {command : Command}
    (h : table.lookup name = some command) : command ∈ table.commands := by
  obtain ⟨position, -, h⟩ := Option.bind_eq_some_iff.mp h
  exact List.mem_of_getElem? h

/-- No other commands get into a table than those that are added to it. -/
theorem CommandTable.mem_registerAll {table : CommandTable} {added : List Command} {command : Command}
    (h : command ∈ (table.registerAll added).2.commands) :
    command ∈ table.commands ∨ command ∈ added := by
  induction added generalizing table with
  | nil => exact .inl h
  | cons first rest ih =>
    unfold registerAll register at h
    cases hr : table.rejects? first with
    | some cause =>
      rw [hr] at h
      exact .inl h
    | none =>
      rw [hr] at h
      rcases ih h with hm | hm
      · rcases List.mem_append.mp hm with hm | hm
        · exact .inl hm
        · exact .inr (List.mem_cons.mpr (.inl (List.mem_singleton.mp hm)))
      · exact .inr (List.mem_cons_of_mem _ hm)

theorem CommandTable.mem_general {name : String} {command : Command}
    (h : general.lookup name = some command) : command ∈ General.commands :=
  (mem_registerAll (mem_of_lookup h)).resolve_left List.not_mem_nil

/-- The general commands look neither at the name of the script that was started nor at the time. -/
theorem General.handler_eq {command : Command} (h : command ∈ General.commands) (name : String)
    (bindings : Bindings) (identity identity' : String) (now now' : Nat) :
    command.handler ⟨name, bindings, identity, now⟩ =
      command.handler ⟨name, bindings, identity', now'⟩ := by
  simp only [General.commands, List.mem_cons, List.not_mem_nil, or_false] at h
  rcases h with rfl | rfl | rfl | rfl | rfl | rfl | rfl <;> rfl

theorem CommandTable.request_general (identity identity' name : String) (arguments : List Value)
    (world : World) :
    general.request identity name arguments world =
      general.request identity' name arguments world := by
  unfold request
  cases hl : general.lookup name with
  | none => rfl
  | some command =>
    dsimp only
    cases matchArguments command.name command.arity arguments with
    | error cause => rfl
    | ok bindings => exact Prod.ext (General.handler_eq (mem_general hl) ..) rfl

/-- What is asked for in the name of a general command does not depend on the surroundings, and neither
does it whether the clock is read. -/
theorem CommandTable.request_timeless (identity name : String) (arguments : List Value) :
    (∃ cause, ∀ world, general.request identity name arguments world = (.error cause, world)) ∨
      ∃ answer, ∀ world,
        general.request identity name arguments world = (answer, world.readClock.2) := by
  cases hl : general.lookup name with
  | none => exact .inl ⟨_, fun world => by rw [request, hl]⟩
  | some command =>
    cases hm : matchArguments command.name command.arity arguments with
    | error cause => exact .inl ⟨cause, fun world => by rw [request, hl]; simp only [hm]⟩
    | ok bindings =>
      refine .inr ⟨command.handler ⟨command.name, bindings, identity, 0⟩, fun world => ?_⟩
      rw [request, hl]
      simp only [hm]
      exact Prod.ext (General.handler_eq (mem_general hl) ..) rfl

/-! ## Answers -/

/-- The answer of a command: its arguments are matched, then its handler is asked. -/
def Command.answer (command : Command) (identity : String) (now : Nat) (arguments : List Value) :
    Except Cause Action :=
  match matchArguments command.name command.arity arguments with
  | .error cause => .error cause
  | .ok bindings => command.handler ⟨command.name, bindings, identity, now⟩

theorem CommandTable.request_eq {table : CommandTable} {name : String} {command : Command}
    (h : table.lookup name = some command) (identity : String) (arguments : List Value)
    (world : World) :
    (table.request identity name arguments world).1 =
      command.answer identity world.readClock.1 arguments := by
  simp only [request, h, Command.answer]
  cases matchArguments command.name command.arity arguments <;> rfl

/-- Whether a cause is that an argument which a handler looks at is not there or is of another type. -/
def Cause.isAccess : Cause → Bool
  | .unbound _ | .boundType .. => true
  | _ => false

namespace General

/-- What a general command asks for, or how it fails, when it is given some arguments. -/
inductive Answers : Command → List Value → Except Cause Action → Prop
  | mismatch {command : Command} {arguments : List Value} {fault : MatchFault}
      (rejects : command.arity.bind arguments = .error fault) :
      Answers command arguments (.error (.mismatch command.name fault))
  | finish {arguments : List Value} (one : arguments.length ≤ 1) :
      Answers returnCommand arguments (.ok (.finish (arguments.headD .invalid)))
  | severalResults {arguments : List Value} (several : 1 < arguments.length) :
      Answers returnCommand arguments (.error (.severalResults arguments.length))
  | call (target : String) (arguments : List Value) :
      Answers callCommand (.string target :: arguments) (.ok (.call target arguments))
  | breakLoop : Answers breakCommand [] (.ok .breakLoop)
  | continueLoop : Answers continueCommand [] (.ok .continueLoop)
  | secondsPassed : Answers secondsPassedCommand [] (.ok .secondsPassed)
  | format (arguments : List Value) (text : Except NumberFormat.FormatFault String) :
      Answers formatNumberCommand arguments
        ((text.mapError Cause.format).map fun text => .value (.string text))
  | print (arguments : List Value) (message : String) :
      Answers printCommand arguments (.ok (.print message))

variable {identity : String} {now : Nat} {arguments : List Value}

theorem answers_of_bind_error {command : Command} {fault : MatchFault}
    (h : command.arity.bind arguments = .error fault) :
    Answers command arguments (command.answer identity now arguments) := by
  rw [Command.answer, matchArguments, h]
  exact .mismatch h

theorem answer_of_bind_ok {command : Command} {bindings : Bindings}
    (h : command.arity.bind arguments = .ok bindings) :
    command.answer identity now arguments =
      command.handler ⟨command.name, bindings, identity, now⟩ := by
  rw [Command.answer, matchArguments, h]
  rfl

/-- Where any value is taken there is no mismatch. -/
theorem firstMismatch?_multi (index : Nat) (arguments : List Value) :
    firstMismatch? index (some .multi) [] arguments = none := by
  induction arguments generalizing index with
  | nil => rfl
  | cons value rest ih => exact ih (index + 1)

theorem answers_return :
    Answers returnCommand arguments (returnCommand.answer identity now arguments) := by
  rcases arguments with _ | ⟨first, _ | ⟨second, rest⟩⟩
  · exact .finish (Nat.zero_le _)
  · exact .finish (Nat.le_refl _)
  · have hb : returnCommand.arity.bind (first :: second :: rest) =
        .ok ⟨first :: second :: rest ++ [], (first :: second :: rest).length, none⟩ := by
      have hm : firstMismatch? 0 (some .multi) [⟨"Return Value", .multi, some .invalid⟩]
          (first :: second :: rest) = none := firstMismatch?_multi 1 (second :: rest)
      simp only [returnCommand, Arity.bind, bindTyped, hm]
      rfl
    have hs : 1 < (first :: second :: rest).length := by simp
    rw [answer_of_bind_ok hb]
    simp only [returnCommand, hs, if_true]
    exact .severalResults hs

theorem bind_call (target : String) (arguments : List Value) :
    callCommand.arity.bind (.string target :: arguments) =
      .ok ⟨.string target :: arguments, arguments.length + 1, none⟩ := by
  have hm : firstMismatch? 0 (some .multi) [⟨"Function Script", .string, none⟩]
      (.string target :: arguments) = none := firstMismatch?_multi 1 arguments
  have hn : ¬ (Value.string target :: arguments).length < 1 := by simp
  simp only [callCommand, Arity.bind, bindTyped, hm]
  exact (if_neg hn).trans (by simp)

theorem answers_call :
    Answers callCommand arguments (callCommand.answer identity now arguments) := by
  cases arguments with
  | nil => exact answers_of_bind_error rfl
  | cons first rest =>
    cases first with
    | string target =>
      rw [answer_of_bind_ok (bind_call target rest)]
      exact .call target rest
    | _ => exact answers_of_bind_error rfl

theorem handler_format (number : Float) (format locale : String) (supplied : Nat) (name : String) :
    formatNumberCommand.handler
        ⟨name, ⟨[.numeric number, .string format, .string locale], supplied, none⟩, identity, now⟩ =
      ((NumberFormat.write number format locale).mapError Cause.format).map fun text =>
        .value (.string text) := by
  simp only [formatNumberCommand, Bindings.numeric, Bindings.string, Bindings.value, Bindings.get?,
    List.getElem?_cons_zero, List.getElem?_cons_succ, bind, Except.bind, pure, Except.pure]
  cases NumberFormat.write number format locale <;> rfl

theorem answers_of_bind_format {number : Float} {format locale : String} {supplied : Nat}
    (h : formatNumberCommand.arity.bind arguments =
      .ok ⟨[.numeric number, .string format, .string locale], supplied, none⟩) :
    Answers formatNumberCommand arguments (formatNumberCommand.answer identity now arguments) := by
  rw [answer_of_bind_ok h, handler_format]
  exact .format arguments _

theorem answers_format :
    Answers formatNumberCommand arguments (formatNumberCommand.answer identity now arguments) := by
  rcases arguments with _ | ⟨number, _ | ⟨format, _ | ⟨locale, _ | ⟨extra, rest⟩⟩⟩⟩
  · exact answers_of_bind_error rfl
  · exact answers_of_bind_error rfl
  · cases number with
    | numeric number =>
      cases format with
      | string format => exact answers_of_bind_format rfl
      | _ => exact answers_of_bind_error rfl
    | _ => exact answers_of_bind_error rfl
  · cases number with
    | numeric number =>
      cases format with
      | string format =>
        cases locale with
        | string locale => exact answers_of_bind_format rfl
        | _ => exact answers_of_bind_error rfl
      | _ => exact answers_of_bind_error rfl
    | _ => exact answers_of_bind_error rfl
  · have hn : 3 < (number :: format :: locale :: extra :: rest).length := by simp
    have hb : formatNumberCommand.arity.bind (number :: format :: locale :: extra :: rest) =
        .error (.between 2 3 (rest.length + 4)) := by
      simp only [formatNumberCommand, Arity.bind, bindParameters]
      exact if_pos (.inr hn)
    exact answers_of_bind_error hb

theorem answers_print :
    Answers printCommand arguments (printCommand.answer identity now arguments) := by
  rcases arguments with _ | ⟨message, _ | ⟨extra, rest⟩⟩
  · exact .print [] ""
  · cases message with
    | string message => exact .print _ message
    | _ => exact answers_of_bind_error rfl
  · have hb : printCommand.arity.bind (message :: extra :: rest) =
        .error (.noSet [("OneString", 0, 1)] (rest.length + 2)) := by
      simp [printCommand, Arity.bind, ParameterSet.admits]
    exact answers_of_bind_error hb

/-- A command that takes no arguments. -/
theorem answers_simple {command : Command} {action : Action} (ha : command.arity = .simple 0)
    (hh : ∀ call, command.handler call = .ok action) (hc : Answers command [] (.ok action)) :
    Answers command arguments (command.answer identity now arguments) := by
  cases arguments with
  | nil =>
    rw [answer_of_bind_ok (by rw [ha]; rfl), hh]
    exact hc
  | cons first rest => exact answers_of_bind_error (by rw [ha]; rfl)

theorem answers {command : Command} (h : command ∈ General.commands) :
    Answers command arguments (command.answer identity now arguments) := by
  simp only [General.commands, List.mem_cons, List.not_mem_nil, or_false] at h
  rcases h with rfl | rfl | rfl | rfl | rfl | rfl | rfl
  · exact answers_return
  · exact answers_call
  · exact answers_simple rfl (fun _ => rfl) .breakLoop
  · exact answers_simple rfl (fun _ => rfl) .continueLoop
  · exact answers_simple rfl (fun _ => rfl) .secondsPassed
  · exact answers_format
  · exact answers_print

theorem Answers.of_finish {command : Command} {value : Value}
    (h : Answers command arguments (.ok (.finish value))) :
    command = returnCommand ∧ arguments.length ≤ 1 ∧ value = arguments.headD .invalid := by
  generalize hr : (Except.ok (Action.finish value) : Except Cause Action) = result at h
  cases h with
  | finish one => cases hr; exact ⟨rfl, one, rfl⟩
  | format arguments text => cases text <;> cases hr
  | _ => cases hr

theorem Answers.of_call {command : Command} {target : String} {rest : List Value}
    (h : Answers command arguments (.ok (.call target rest))) :
    command = callCommand ∧ arguments = .string target :: rest := by
  generalize hr : (Except.ok (Action.call target rest) : Except Cause Action) = result at h
  cases h with
  | call target rest => cases hr; exact ⟨rfl, rfl⟩
  | format arguments text => cases text <;> cases hr
  | _ => cases hr

theorem Answers.of_callCommand {action : Action} (h : Answers callCommand arguments (.ok action)) :
    ∃ target rest, arguments = .string target :: rest := by
  generalize hr : (Except.ok action : Except Cause Action) = result at h
  generalize hc : callCommand = command at h
  have hn : command.name = "Call" := hc ▸ rfl
  cases h with
  | call target rest => exact ⟨target, rest, rfl⟩
  | mismatch => cases hr
  | _ => exact absurd hn (by decide)

/-- The general commands find the arguments that they look at. -/
theorem Answers.reads {command : Command} {cause : Cause}
    (h : Answers command arguments (.error cause)) : cause.isAccess = false := by
  generalize hr : (Except.error cause : Except Cause Action) = result at h
  cases h with
  | mismatch => cases hr; rfl
  | severalResults => cases hr; rfl
  | format arguments text =>
    cases text with
    | ok text => cases hr
    | error fault => cases hr; rfl
  | _ => cases hr

end General

/-- What is asked for in the name of a general command is one of its answers. -/
theorem CommandTable.answers_general {name : String} {command : Command}
    (h : general.lookup name = some command) (identity : String) (arguments : List Value)
    (world : World) :
    General.Answers command arguments (general.request identity name arguments world).1 := by
  rw [request_eq h]
  exact General.answers (mem_general h)

theorem CommandTable.request_call {table : CommandTable} {name : String}
    (h : table.lookup name = some General.callCommand) (identity target : String)
    (arguments : List Value) (world : World) :
    table.request identity name (.string target :: arguments) world =
      (.ok (.call target arguments), world.readClock.2) := by
  simp only [request, h, matchArguments, General.bind_call]
  rfl

theorem CommandTable.request_return {table : CommandTable} {name : String}
    (h : table.lookup name = some General.returnCommand) (identity : String) {arguments : List Value}
    (one : arguments.length ≤ 1) (world : World) :
    table.request identity name arguments world =
      (.ok (.finish (arguments.headD .invalid)), world.readClock.2) := by
  rcases arguments with _ | ⟨value, _ | ⟨second, rest⟩⟩
  · simp only [request, h]
    rfl
  · simp only [request, h]
    rfl
  · simp at one

end ScriptEngine
