import Mathlib.Algebra.GroupWithZero.Nat
import Mathlib.Data.List.Induction
import ScriptEngine.Proofs.Command.General
import ScriptEngine.Proofs.Dictionary
import ScriptEngine.Proofs.Machine.Effects

/-!
# Ticks

A tick is a dispatch of the command that measures time: it has a script, a time and a result.
`Machine.ticks` lists the ticks of a run, and `Machine.step_timers` says what a step does to the timers,
by whether it ticks. `Accounts` says that timers are those which some ticks leave behind, and that each
of these ticks was given the right result: the time since the latest one of the earlier ticks of its
script. One more step keeps this up (`Accounts.add`), and hence so does a run (`Accounts.run`).
-/

namespace ScriptEngine

/-- The time up to now since the latest of some earlier times, none if there are none. A clock that has
gone back adds nothing. -/
def timeSince (earlier : List Nat) (now : Nat) : Nat :=
  (earlier.max?.map (now - ·)).getD 0

/-- At each of some times the time since the latest of those before it. -/
def durations (times : List Nat) : List Nat :=
  times.mapIdx fun position now => timeSince (times.take position) now

theorem durations_concat (times : List Nat) (now : Nat) :
    durations (times ++ [now]) = durations times ++ [timeSince times now] := by
  unfold durations
  rw [List.mapIdx_concat, List.take_left]
  congr 1
  refine List.mapIdx_eq_mapIdx_iff.mpr fun position hp => ?_
  rw [List.take_append_of_le_length (Nat.le_of_lt hp)]

theorem max?_concat (times : List Nat) (now : Nat) :
    (times ++ [now]).max? = some (times.max?.elim now (max · now)) := by
  cases times with
  | nil => rfl
  | cons first rest =>
    rw [List.cons_append, List.max?_cons', List.max?_cons', List.foldl_append]
    rfl

/-- A timer that remembers the latest of some times. -/
theorem Timer.tick_eq {timer : Timer} {times : List Nat} (h : timer.lastTick = times.max?) (now : Nat) :
    timer.tick now = (timeSince times now, ⟨(times ++ [now]).max?⟩) := by
  rw [tick, h, max?_concat, timeSince]
  cases times.max? <;> rfl

/-! ## The ticks of a run -/

/-- A dispatch of the command that measures time. -/
structure Tick where
  /-- The script of the frame that asks. -/
  script : String
  /-- What the clock shows. -/
  time : Nat
  result : Value
  deriving DecidableEq, Repr

namespace Machine

variable (machine : Machine)

/-- The tick of the next step, if it measures time with success. -/
def tick? (state : State) : Option Tick :=
  match state.context.frames with
  | [] => none
  | frame :: _ =>
    match frame.operation? with
    | some (.command use) =>
      match use.arguments.mapM (machine.evaluate · frame.locals) with
      | .error _ => none
      | .ok arguments =>
        match machine.commands.lookup use.name with
        | none => none
        | some command =>
          if command.name = General.secondsPassedCommand.name then
            match (machine.dispatch ⟨use.result, use.expect⟩ use.name arguments state).1 with
            | .ok (.value result) => some ⟨frame.script.name, state.world.readClock.1, result⟩
            | _ => none
          else
            none
    | _ => none

/-- The ticks of a run up to a number of steps, also if it fails then. -/
def ticks : Nat → State → List Tick
  | 0, _ => []
  | limit + 1, state =>
    (machine.tick? state).toList ++
      match machine.step state with
      | (.running _, after) => ticks limit after
      | _ => []

end Machine

/-- The timers after a step, by its tick. -/
inductive TimersAfter (timers : Dictionary Timer) : Option Tick → Dictionary Timer → Prop
  | idle : TimersAfter timers none timers
  | tick (script : String) (now : Nat) :
      TimersAfter timers
        (some ⟨script, now, .numeric (secondsOf (tickOf timers script now).1)⟩)
        (timers.insert script (tickOf timers script now).2)

section

variable {machine : Machine} {identity : String} {frame : Frame} {callers : List Frame}
  {loops : List LoopContext} {timers : Dictionary Timer} {world : World} {use : CommandUse}

/-- No operation but a command ticks. -/
theorem Machine.tick?_eq_none {state : State} (hf : state.context.frames = frame :: callers)
    (ho : ∀ use, frame.operation? ≠ some (.command use)) : machine.tick? state = none := by
  simp only [tick?, hf]

theorem Machine.tick?_command {state : State} {arguments : List Value} {command : Command}
    (hf : state.context.frames = frame :: callers) (ho : frame.operation? = some (.command use))
    (hl : machine.commands.lookup use.name = some command)
    (ha : use.arguments.mapM (machine.evaluate · frame.locals) = .ok arguments) :
    machine.tick? state =
      if command.name = General.secondsPassedCommand.name then
        match (machine.dispatch ⟨use.result, use.expect⟩ use.name arguments state).1 with
        | .ok (.value result) => some ⟨frame.script.name, state.world.readClock.1, result⟩
        | _ => none
      else none := by
  simp only [tick?, hf, ho, hl, ha]

/-- Among the general commands only one asks for the time, and all other ones leave the timers alone. -/
theorem Machine.timersAfter_command (hgeneral : machine.commands = .general)
    (ho : frame.operation? = some (.command use)) :
    TimersAfter timers (machine.tick? ⟨⟨identity, frame :: callers, loops, timers⟩, world⟩)
      ((⟨identity, world.console, timers⟩ : Outward).replay
        (machine.commandEvents identity frame timers world use)).timers := by
  rw [commandEvents, Outward.replay_append, replay_evaluations]
  cases ha : use.arguments.mapM (machine.evaluate · frame.locals) with
  | error cause =>
    have hn : machine.tick? ⟨⟨identity, frame :: callers, loops, timers⟩, world⟩ = none := by
      simp only [tick?, ho, ha]
    rw [hn]
    exact .idle
  | ok arguments =>
    cases hl : machine.commands.lookup use.name with
    | none =>
      have hn : machine.tick? ⟨⟨identity, frame :: callers, loops, timers⟩, world⟩ = none := by
        simp only [tick?, ho, ha, hl]
      simp only [hn, CommandTable.request, hl]
      exact .idle
    | some command =>
      have hanswers := CommandTable.answers_general (hgeneral ▸ hl) identity arguments world
      rw [tick?_command rfl ho hl ha]
      simp only [dispatch_eq, hgeneral]
      generalize CommandTable.general.request identity use.name arguments world = request
        at hanswers ⊢
      obtain ⟨result, world'⟩ := request
      cases hanswers with
      | mismatch => split <;> exact .idle
      | secondsPassed => exact .tick frame.script.name world.readClock.1
      | format arguments text =>
        rw [if_neg (by decide)]
        cases text <;> exact .idle
      | _ =>
        rw [if_neg (by decide)]
        exact .idle

/-- What a step does to the timers. -/
theorem Machine.step_timers (hgeneral : machine.commands = .general) (state : State) :
    TimersAfter state.context.timers (machine.tick? state)
      (machine.step state).2.context.timers := by
  have hs : (machine.step state).2.context.timers =
      (state.outward.replay (machine.observe state)).timers :=
    congrArg Outward.timers (machine.step_outward state)
  rw [hs]
  obtain ⟨⟨identity, frames, loops, timers⟩, world⟩ := state
  cases frames with
  | nil => exact .idle
  | cons frame callers =>
    cases ho : frame.operation? with
    | none =>
      rw [tick?_eq_none rfl (by simp [ho])]
      simp only [observe, ho]
      exact .idle
    | some operation =>
      simp only [observe, ho]
      cases operation with
      | command use => exact timersAfter_command hgeneral ho
      | _ =>
        rw [tick?_eq_none rfl (by simp [ho])]
        exact .idle

end

/-- When a script last asked for the time. -/
def lastTick (timers : Dictionary Timer) (script : String) : Option Nat :=
  (timers.get? script).bind (·.lastTick)

theorem lastTick_insert_self (timers : Dictionary Timer) (script : String) (timer : Timer) :
    lastTick (timers.insert script timer) script = timer.lastTick := by
  rw [lastTick, Dictionary.get?_insert_self]
  rfl

theorem lastTick_insert_other (timers : Dictionary Timer) {script other : String} (h : other ≠ script)
    (timer : Timer) : lastTick (timers.insert script timer) other = lastTick timers other := by
  rw [lastTick, Dictionary.get?_insert_other timers h, lastTick]

theorem lastTick_fresh (entry script : String) :
    lastTick (Dictionary.empty.insert entry {}) script = none := by
  by_cases he : script = entry
  · rw [he, lastTick_insert_self]
  · rw [lastTick_insert_other _ he]
    rfl

/-- The timers are those that some ticks leave behind, and each tick was given the time since the latest
one of the earlier ticks of its script. -/
structure Accounts (timers : Dictionary Timer) (ticks : List Tick) : Prop where
  latest : ∀ script, lastTick timers script =
    ((ticks.filter (·.script = script)).map (·.time)).max?
  results : ∀ script, (ticks.filter (·.script = script)).map (·.result) =
    (durations ((ticks.filter (·.script = script)).map (·.time))).map fun elapsed =>
      .numeric (secondsOf elapsed)

namespace Accounts

variable {timers : Dictionary Timer} {ticks : List Tick}

theorem tickOf_eq (h : Accounts timers ticks) (script : String) (now : Nat) :
    tickOf timers script now =
      let times := (ticks.filter (·.script = script)).map (·.time)
      (timeSince times now, ⟨(times ++ [now]).max?⟩) := by
  refine Timer.tick_eq ?_ now
  rw [← h.latest script, lastTick]
  cases timers.get? script <;> rfl

/-- One more step, with a tick or without. -/
theorem add (h : Accounts timers ticks) {tick? : Option Tick} {after : Dictionary Timer}
    (ht : TimersAfter timers tick? after) : Accounts after (ticks ++ tick?.toList) := by
  cases ht with
  | idle => rwa [Option.toList_none, List.append_nil]
  | tick asking now =>
    rw [h.tickOf_eq asking now]
    refine ⟨fun script => ?_, fun script => ?_⟩
    · by_cases hs : asking = script
      · subst hs
        simp [lastTick_insert_self]
      · rw [lastTick_insert_other _ (Ne.symm hs)]
        simpa [hs] using h.latest script
    · by_cases hs : asking = script
      · subst hs
        simp [durations_concat, h.results]
      · simpa [hs] using h.results script

variable {machine : Machine}

theorem runWithin (h : machine.commands = .general) (limit remaining : Nat) {run : Run}
    (ha : Accounts run.state.context.timers ticks) :
    Accounts (machine.runWithin limit remaining run).2.context.timers
      (ticks ++ machine.ticks remaining run.state) := by
  induction remaining generalizing run ticks with
  | zero => rwa [Machine.ticks, List.append_nil]
  | succ remaining ih =>
    have hstep := ha.add (machine.step_timers h run.state)
    rw [Machine.runWithin, Machine.advance, Machine.ticks, ← List.append_assoc]
    cases hs : machine.step run.state with
    | mk progress after =>
      rw [hs] at hstep
      cases progress with
      | running degraded => exact ih hstep
      | finished value => rwa [List.append_nil]
      | failed fault => rwa [List.append_nil]

/-- The ticks of a run account for its timers, however it ends. -/
theorem run (h : machine.commands = .general) (limit : Nat) {state : State}
    (ha : Accounts state.context.timers ticks) :
    Accounts (machine.run limit state).2.context.timers (ticks ++ machine.ticks limit state) :=
  @runWithin ticks machine h limit limit ⟨state, 0, []⟩ ha

end Accounts

end ScriptEngine
