import ScriptEngine.Proofs.Machine.Dispatch
import ScriptEngine.Proofs.Script.Signature

/-!
# The arguments that a script finds

A script that is run, run in the background or called starts with the same locals: the names of its
parameters are paired with the matched values (`Script.bind`). Under the name of a parameter stands its
value if no later parameter has the same name (`Script.get?_bind`). Reading a script does not ask that the
names of parameters are distinct, so of two parameters with one name the first one is lost.
`arguments_readable_iff_names_distinct` says that this is all that can go wrong.
-/

namespace ScriptEngine

variable {script : Script} {arguments : List Value} {bindings : Bindings}

/-- All values can be read under the names of their parameters, and there is nothing else to read. -/
structure Script.Reads (script : Script) (values : List Value) (locals : Dictionary Value) : Prop where
  size : locals.size = script.parameters.length
  value : ∀ (i : Nat) (p : ScriptParameter) (v : Value), script.parameters[i]? = some p →
    values[i]? = some v → locals.get? p.name = some v

/-- There is one value for each parameter. -/
theorem Script.length_values (hm : matchArguments script.name script.arity arguments = .ok bindings) :
    bindings.values.length = script.parameters.length := by
  obtain ⟨hs, rfl⟩ := bindParameters_ok_iff.mp (matchArguments_ok_iff.mp hm)
  rw [length_filled, Nat.max_eq_right hs.atMost, signature, List.length_map]

/-- Under the name of a parameter stands its value, if no later parameter has that name. -/
theorem Script.get?_bind {i : Nat} {p : ScriptParameter} {v : Value} (hp : script.parameters[i]? = some p)
    (hv : bindings.values[i]? = some v)
    (hl : ∀ j q, i < j → script.parameters[j]? = some q → q.name ≠ p.name) :
    (script.bind bindings).get? p.name = some v := by
  refine @Dictionary.get?_ofList_last _ _ i _ _ ?_ fun j pair hj hpair => ?_
  · rw [List.getElem?_zip_eq_some, List.getElem?_map, hp]
    exact ⟨rfl, hv⟩
  · rw [List.getElem?_zip_eq_some, List.getElem?_map] at hpair
    obtain ⟨q, hq, hn⟩ := Option.map_eq_some_iff.mp hpair.1
    rw [← hn]
    exact hl j q hj hq

theorem Script.size_bind_iff (h : bindings.values.length = script.parameters.length) :
    (script.bind bindings).size = script.parameters.length ↔ (script.parameters.map (·.name)).Nodup := by
  have hnames : (script.parameters.map (·.name)).length = bindings.values.length := by
    rw [List.length_map, h]
  have hlength : ((script.parameters.map (·.name)).zip bindings.values).length =
      script.parameters.length := by
    rw [List.length_zip, hnames, Nat.min_self, h]
  have hsize := Dictionary.size_ofList_eq_iff ((script.parameters.map (·.name)).zip bindings.values)
  rw [hlength, List.map_fst_zip (Nat.le_of_eq hnames)] at hsize
  exact hsize

/-- All values can be read exactly if no two parameters have the same name. -/
theorem Script.reads_iff (h : bindings.values.length = script.parameters.length) :
    script.Reads bindings.values (script.bind bindings) ↔ (script.parameters.map (·.name)).Nodup := by
  refine ⟨fun hr => (size_bind_iff h).mp hr.size, fun hd => ⟨(size_bind_iff h).mpr hd, ?_⟩⟩
  intro i p v hp hv
  refine get?_bind hp hv fun j q hj hq hn => ?_
  have hnames : (script.parameters.map (·.name))[i]? = (script.parameters.map (·.name))[j]? := by
    rw [List.getElem?_map, List.getElem?_map, hp, hq, Option.map_some, Option.map_some, hn]
  have hi : i < (script.parameters.map (·.name)).length := by
    rw [List.length_map]
    exact (List.getElem?_eq_some_iff.mp hp).1
  exact absurd ((List.getElem?_inj hi hd).mp hnames) (Nat.ne_of_lt hj)

/-! ## Starting scripts -/

theorem Engine.prepare_eq {engine : Engine} {name : String}
    (hs : engine.machine.scripts.get? name = some script)
    (hm : matchArguments script.name script.arity arguments = .ok bindings) :
    engine.prepare name arguments = .ok (Context.start script (script.bind bindings)) := by
  simp only [prepare, hs, hm]
  rfl

theorem Machine.startOf_eq {machine : Machine} {site : CallSite} {target : String} {depth : Nat}
    (hs : machine.scripts.get? target = some script) (hd : depth < machine.depthLimit)
    (hm : matchArguments script.name script.arity arguments = .ok bindings) :
    machine.startOf site target arguments depth =
      .inr (script, script.bind bindings, site.expect.getD script.returnType) := by
  simp only [startOf, hs, Nat.not_le.mpr hd, if_false, matchArguments_ok_iff.mp hm]

/-- The arguments of a script can be read under the names of its parameters exactly if these are distinct.
Consider arguments that match the parameters of a script. Runs, background runs and calls start the script
with the same locals, in which there is a value for each parameter. They have as many entries as there are
parameters, and under the name of each one its value, exactly if no two parameters have the same name. In
any case the last parameter of a name can be read. -/
theorem arguments_readable_iff_names_distinct
    (hm : matchArguments script.name script.arity arguments = .ok bindings) :
    let locals := script.bind bindings
    (∀ (engine : Engine) name world, engine.machine.scripts.get? name = some script →
      ∃ context : Context, context.locals = .ok locals ∧
        (context.withTimers engine.timers).locals = .ok locals ∧
        engine.run name arguments world =
          (let ended := engine.machine.run engine.stepLimit ⟨context, world⟩
          (ended.1, ended.2.world)) ∧
        engine.runBackground name arguments world =
          let ended := engine.machine.run engine.stepLimit ⟨context.withTimers engine.timers, world⟩
          (ended.1, { engine with timers := ended.2.context.timers }, ended.2.world)) ∧
    (∀ (machine : Machine) name target site (state : State),
      machine.commands.lookup name = some General.callCommand →
      machine.scripts.get? target = some script → 0 < state.context.depth →
      state.context.depth < machine.depthLimit →
      ∃ after, machine.dispatch site name (.string target :: arguments) state = (.ok .transferred, after) ∧
        after.context.depth = state.context.depth + 1 ∧ after.context.locals = .ok locals) ∧
    bindings.values.length = script.parameters.length ∧
    (script.Reads bindings.values locals ↔ (script.parameters.map (·.name)).Nodup) ∧
    ∀ (i : Nat) (p : ScriptParameter) (v : Value), script.parameters[i]? = some p →
      bindings.values[i]? = some v →
      (∀ j q, i < j → script.parameters[j]? = some q → q.name ≠ p.name) →
      locals.get? p.name = some v := by
  intro locals
  have hlength := Script.length_values hm
  refine ⟨fun engine name world hs => ?_, fun machine name target site state hcall hs hframe hroom => ?_,
    hlength, Script.reads_iff hlength, fun i p v => Script.get?_bind⟩
  · refine ⟨Context.start script locals, rfl, rfl, ?_, ?_⟩
    · rw [Engine.run, Engine.prepare_eq hs hm]
    · rw [Engine.runBackground, Engine.prepare_eq hs hm]
  · obtain ⟨⟨identity, frames, loops, timers⟩, world⟩ := state
    cases frames with
    | nil => exact absurd hframe (Nat.lt_irrefl 0)
    | cons frame callers =>
      have hstart := @Machine.startOf_eq script arguments bindings machine site target
        (callers.length + 1) hs hroom hm
      rw [Machine.dispatch_call hcall, hstart]
      exact ⟨_, rfl, rfl, rfl⟩

/-- Of the two values that the script takes, one is given and the other one is a default; both can be
read. -/
theorem pad_arguments_readable :
    ∃ script bindings, Script.parse "pad.script.xml" padSource = .ok script ∧
      matchArguments script.name script.arity [.string "a"] = .ok bindings ∧
      bindings.values = [.string "a", .string "-"] ∧
      script.Reads bindings.values (script.bind bindings) := by
  have hp : (Script.parse "pad.script.xml" padSource).toOption.map
      (fun script => (script.signature, script.parameters.map (·.name))) =
        some ([⟨"text", .string, none⟩, ⟨"fill", .multi, some (.string "-")⟩], ["text", "fill"]) := by
    decide +kernel
  obtain ⟨script, hs, hparts⟩ := ok_of_toOption_map hp
  obtain ⟨hsignature, hnames⟩ := Prod.mk.inj hparts
  have hm : matchArguments script.name script.arity [.string "a"] =
      .ok ⟨[.string "a", .string "-"], 1, none⟩ := by
    rw [Script.arity, hsignature]
    rfl
  obtain ⟨-, -, -, hreads, -⟩ := arguments_readable_iff_names_distinct hm
  exact ⟨script, _, hs, hm, rfl, hreads.mpr (by rw [hnames]; decide)⟩

/-- The text of a script with two parameters of the same name. -/
def twinSource : String :=
  "<script name=\"main\"><param name=\"a\" type=\"string\"/><param name=\"a\" type=\"string\"/>" ++
    "<command name=\"Return\"><arg>a</arg></command></script>"

/-- Of two arguments whose parameters have the same name the first one is lost. -/
theorem repeated_name_hides_argument :
    ∃ script bindings, Script.parse "main.script.xml" twinSource = .ok script ∧
      matchArguments script.name script.arity [.string "first", .string "second"] = .ok bindings ∧
      bindings.values = [.string "first", .string "second"] ∧
      (script.bind bindings).entries = [("a", .string "second")] ∧
      ¬ script.Reads bindings.values (script.bind bindings) := by
  have hp : (Script.parse "main.script.xml" twinSource).toOption.map
      (fun script => (script.signature, script.parameters.map (·.name))) =
        some ([⟨"a", .string, none⟩, ⟨"a", .string, none⟩], ["a", "a"]) := by
    decide +kernel
  obtain ⟨script, hs, hparts⟩ := ok_of_toOption_map hp
  obtain ⟨hsignature, hnames⟩ := Prod.mk.inj hparts
  have hm : matchArguments script.name script.arity [.string "first", .string "second"] =
      .ok ⟨[.string "first", .string "second"], 2, none⟩ := by
    rw [Script.arity, hsignature]
    rfl
  refine ⟨script, _, hs, hm, rfl, ?_, fun hreads => ?_⟩
  · rw [Script.bind, hnames]
    rfl
  · have hdistinct := (Script.reads_iff (Script.length_values hm)).mp hreads
    rw [hnames] at hdistinct
    revert hdistinct
    decide

end ScriptEngine
