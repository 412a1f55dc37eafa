import ScriptEngine.Proofs.Command.General
import ScriptEngine.Proofs.Command.Matching
import ScriptEngine.Proofs.Direct.Reading

/-!
# Signatures of scripts

A script that has been read declares its parameters in the order that a command must keep to, though the
two are checked by rules of their own: `misplaced?` looks for a parameter without default behind one with
default, and `literal?` reads a default as a value of its parameter's type. So what holds of the
arguments of registered commands holds of those of scripts as well (`matched_bindings_are_well_typed`).
-/

namespace ScriptEngine

open Markup (Element)

theorem accepts_of_literal {type : DataType} {text : String} {v : Value}
    (h : literal? type text = some v) : type.accepts v = true := by
  cases type with
  | numeric =>
    simp only [literal?, Option.map_eq_some_iff] at h
    obtain ⟨x, -, rfl⟩ := h
    rfl
  | string =>
    simp only [literal?, Option.some.injEq] at h
    subst h
    rfl
  | reference =>
    simp only [literal?, Option.map_eq_some_iff] at h
    obtain ⟨id, -, rfl⟩ := h
    rfl
  | multi => rfl
  | invalid => cases h

/-- The default of a parameter that has been read is of its type. -/
theorem ScriptParameter.accepts_default {e : Element} {p : ScriptParameter}
    (h : ScriptParameter.ofElement e = .ok p) {v : Value} (hv : p.default = some v) :
    p.dataType.accepts v = true := by
  obtain ⟨-, ⟨-, hn⟩ | ⟨text, value, -, hl, hd⟩⟩ := Direct.default_of_ofElement h
  · rw [hn] at hv
    cases hv
  · rw [hd] at hv
    cases hv
    exact accepts_of_literal hl

/-- Dropping the required parameters leaves those from the first optional one on. -/
theorem drop_requiredCount (parameters : List Parameter) :
    parameters.drop (requiredCount parameters) = parameters.dropWhile (!·.isOptional) := by
  have hs := @List.takeWhile_append_dropWhile _ (fun p : Parameter => !p.isOptional) parameters
  rw [requiredCount]
  nth_rewrite 2 [← hs]
  exact List.drop_left

theorem Script.optional_of_misplaced? {script : Script} (h : misplaced? script.parameters = none) :
    ∀ p ∈ script.signature.drop (requiredCount script.signature), p.isOptional = true := by
  have hp : (fun p : Parameter => !p.isOptional) ∘ (·.toParameter) =
      fun p : ScriptParameter => p.default.isNone := by
    funext p
    exact Option.not_isSome p.default
  rw [drop_requiredCount, signature, List.dropWhile_map, hp]
  intro p hm
  obtain ⟨q, hq, rfl⟩ := List.mem_map.mp hm
  have hn := List.find?_eq_none.mp h q hq
  simpa [Parameter.isOptional, ScriptParameter.toParameter, Option.isSome_iff_ne_none] using hn

theorem Declaration.misplaced?_eq_none {path : String} {root : Element} {declaration : Declaration}
    (h : Declaration.ofElement path root = .ok declaration) :
    misplaced? declaration.parameters = none := by
  unfold Declaration.ofElement at h
  split at h
  · cases h
  · obtain ⟨name, -, h⟩ := ok_of_bind h
    obtain ⟨returnType, -, h⟩ := ok_of_bind h
    obtain ⟨body, -, h⟩ := ok_of_bind h
    split at h
    · cases h
    · cases h
      assumption

/-- The parameters of a declaration that has been read come from elements. -/
theorem Declaration.mem_parameters {path : String} {root : Element} {declaration : Declaration}
    (h : Declaration.ofElement path root = .ok declaration) {p : ScriptParameter}
    (hp : p ∈ declaration.parameters) : ∃ e, ScriptParameter.ofElement e = .ok p := by
  rw [(Direct.declares_of_ofElement h).parameters] at hp
  obtain ⟨e, -, he⟩ := List.mem_filterMap.mp hp
  cases hr : ScriptParameter.ofElement e with
  | error fault => simp [hr, Except.toOption] at he
  | ok q =>
    simp only [hr, Except.toOption, Option.some.injEq] at he
    exact ⟨e, he ▸ hr⟩

/-- The parameters of a script that has been read are declared in order. -/
theorem Script.inOrder_of_parse {path source : String} {script : Script}
    (h : Script.parse path source = .ok script) : InOrder script.signature := by
  cases hd : Declaration.parse path source with
  | error fault => simp [parse, hd, Except.map] at h
  | ok declaration =>
    simp only [parse, hd, Except.map, Except.ok.injEq] at h
    subst h
    obtain ⟨root, -, hr⟩ := ok_of_bind hd
    refine ⟨optional_of_misplaced? (Declaration.misplaced?_eq_none hr), fun p hp v hv => ?_⟩
    obtain ⟨q, hq, rfl⟩ := List.mem_map.mp hp
    obtain ⟨e, he⟩ := Declaration.mem_parameters hr hq
    exact ScriptParameter.accepts_default he hv

/-- Matched arguments are of the declared types. Whatever arguments a registered command takes, they are
bound as its arity declares; and so are those that a script takes which has been read, whose signature is
one that a command could be registered with. So the handlers of the general commands find all arguments
that they look at, and a call has a first argument to split off. -/
theorem matched_bindings_are_well_typed :
    (∀ (table after : CommandTable) (command : Command), table.register command = .ok after →
      ∀ arguments bindings, matchArguments command.name command.arity arguments = .ok bindings →
        WellBound command.arity arguments bindings) ∧
    (∀ path source script, Script.parse path source = .ok script →
      parametersFault? script.signature = none ∧
      ∀ arguments bindings, matchArguments script.name script.arity arguments = .ok bindings →
        WellBound script.arity arguments bindings) ∧
    (∀ command ∈ General.commands, ∀ arguments bindings,
      matchArguments command.name command.arity arguments = .ok bindings →
        ∀ identity now cause, command.handler ⟨command.name, bindings, identity, now⟩ = .error cause →
          cause.isAccess = false) ∧
    ∀ arguments bindings,
      matchArguments General.callCommand.name General.callCommand.arity arguments = .ok bindings →
        1 ≤ bindings.values.length := by
  refine ⟨fun table after command hr arguments bindings hm => ?_, fun path source script hs => ?_,
    fun command hc arguments bindings hm => ?_, fun arguments bindings hm => ?_⟩
  · exact Arity.wellBound (CommandTable.fault?_of_register hr) (matchArguments_ok_iff.mp hm)
  · have hf := parametersFault?_eq_none_iff.mpr (Script.inOrder_of_parse hs)
    exact ⟨hf, fun arguments bindings hm => Arity.wellBound hf (matchArguments_ok_iff.mp hm)⟩
  · intro identity now cause hh
    rw [← General.answer_of_bind_ok (matchArguments_ok_iff.mp hm)] at hh
    exact (hh ▸ General.answers hc).reads
  · have hf : General.callCommand.arity.fault? = none := rfl
    exact (Arity.wellBound hf (matchArguments_ok_iff.mp hm)).counts

/-- A command with an optional parameter and any number of references. -/
def padCommand : Command where
  name := "Pad"
  nickname := some "P"
  arity := .variadic [⟨"Text", .string, none⟩, ⟨"Fill", .multi, some (.string " ")⟩] .reference
  returnType := .string
  handler _ := .ok (.value .invalid)

/-- The text of a script with a required and an optional parameter. -/
def padSource : String :=
  "<script name=\"pad\"><param name=\"text\" type=\"string\"/>" ++
    "<param name=\"fill\" type=\"multi\" default=\"-\"/></script>"

/-- Given one argument, the command and the script take the default for the other one. -/
theorem pad_bindings_well_typed :
    ∃ after script, CommandTable.empty.register padCommand = .ok after ∧
      Script.parse "pad.script.xml" padSource = .ok script ∧
      WellBound padCommand.arity [.string "a"] ⟨[.string "a", .string " "], 1, none⟩ ∧
      WellBound script.arity [.string "a"] ⟨[.string "a", .string "-"], 1, none⟩ := by
  obtain ⟨hcommand, hscript, -, -⟩ := matched_bindings_are_well_typed
  have hr : CommandTable.empty.rejects? padCommand = none := by decide +kernel
  obtain ⟨after, ht⟩ : ∃ after, CommandTable.empty.register padCommand = .ok after := by
    rw [CommandTable.register, hr]
    exact ⟨_, rfl⟩
  have hp : (Script.parse "pad.script.xml" padSource).toOption.map (·.signature) =
      some [⟨"text", .string, none⟩, ⟨"fill", .multi, some (.string "-")⟩] := by decide +kernel
  cases hs : Script.parse "pad.script.xml" padSource with
  | error fault => rw [hs] at hp; cases hp
  | ok script =>
    rw [hs] at hp
    have ha : script.arity = .standard _ := congrArg Arity.standard (Option.some.inj hp)
    have hm : matchArguments script.name script.arity [.string "a"] =
        .ok ⟨[.string "a", .string "-"], 1, none⟩ := by rw [ha]; rfl
    exact ⟨after, script, ht, rfl, hcommand _ _ _ ht _ _ rfl, (hscript _ _ _ hs).2 _ _ hm⟩

end ScriptEngine
