import ScriptEngine.Command.Table

/-!
# What matched arguments look like

`Suits` says without the matching itself when arguments go with a list of parameters: there are as many
as the parameters allow, and each is of its parameter's type. `bindParameters_ok_iff` says that exactly
these are matched.

`WellBound` describes the values after matching: first the arguments, then defaults, all of the declared
types. It needs that the declaration is in order (`Arity.fault?`), since otherwise a parameter without
default could be left out, or a default could be of a wrong type. `Arity.wellBound` is the statement for
all kinds of arity, and `CommandTable.fault?_of_register` says that registered commands are in order.
-/

namespace ScriptEngine

variable {parameters : List Parameter} {rest : Option DataType} {arguments : List Value}
  {bindings : Bindings}

/-- Arguments have the types of the parameters at their positions, and those beyond the parameters have
the type of the rest, if there is one. -/
structure Typed (parameters : List Parameter) (rest : Option DataType) (arguments : List Value) :
    Prop where
  positions : ∀ (i : Nat) (p : Parameter) (v : Value), parameters[i]? = some p →
    arguments[i]? = some v → p.dataType.accepts v = true
  beyond : ∀ type, rest = some type → ∀ v ∈ arguments.drop parameters.length, type.accepts v = true

theorem typed_nil : Typed parameters rest [] :=
  ⟨nofun, fun _ _ v hv => by simp at hv⟩

theorem typed_cons_cons {p : Parameter} {v : Value} :
    Typed (p :: parameters) rest (v :: arguments) ↔
      p.dataType.accepts v = true ∧ Typed parameters rest arguments := by
  constructor
  · intro h
    exact ⟨h.positions 0 p v rfl rfl, fun i => h.positions (i + 1), h.beyond⟩
  · rintro ⟨hv, h⟩
    refine ⟨fun i q w hp ha => ?_, h.beyond⟩
    cases i with
    | zero =>
      cases hp
      cases ha
      exact hv
    | succ i => exact h.positions i q w hp ha

theorem typed_nil_cons {v : Value} :
    Typed [] rest (v :: arguments) ↔
      (∀ type, rest = some type → type.accepts v = true) ∧ Typed [] rest arguments := by
  constructor
  · intro h
    refine ⟨fun type ht => h.beyond type ht v (List.mem_cons_self ..), nofun, fun type ht w hw => ?_⟩
    exact h.beyond type ht w (List.mem_cons_of_mem v hw)
  · rintro ⟨hv, h⟩
    refine ⟨nofun, fun type ht w hw => ?_⟩
    rcases List.mem_cons.mp hw with rfl | hw
    · exact hv type ht
    · exact h.beyond type ht w hw

theorem firstMismatch?_eq_none_iff (index : Nat) :
    firstMismatch? index rest parameters arguments = none ↔ Typed parameters rest arguments := by
  fun_induction firstMismatch? index rest parameters arguments with
  | case1 => simp [typed_nil]
  | case2 index p parameters v arguments ha ih => simp [typed_cons_cons, ih, ha]
  | case3 index p parameters v arguments ha => simp [typed_cons_cons, ha]
  | case4 index v arguments type hr ha ih => simp_all [typed_nil_cons]
  | case5 index v arguments type hr ha => simp_all [typed_nil_cons]
  | case6 index v arguments hr =>
    subst hr
    simp only [true_iff]
    exact ⟨nofun, nofun⟩

/-- Arguments, followed by the values of the parameters for which there is none. -/
def filled (parameters : List Parameter) (arguments : List Value) : List Value :=
  arguments ++ (parameters.drop arguments.length).map (·.fallback)

/-- Arguments go with a list of parameters: none is missing but for optional ones, there are not too
many, and each is of the type of its parameter. -/
structure Suits (parameters : List Parameter) (arguments : List Value) : Prop where
  enough : requiredCount parameters ≤ arguments.length
  atMost : arguments.length ≤ parameters.length
  typed : ∀ (i : Nat) (p : Parameter) (v : Value), parameters[i]? = some p →
    arguments[i]? = some v → p.dataType.accepts v = true

theorem bindTyped_ok_iff {set : Option String} :
    bindTyped parameters rest set arguments = .ok bindings ↔
      Typed parameters rest arguments ∧
        bindings = ⟨filled parameters arguments, arguments.length, set⟩ := by
  rw [← firstMismatch?_eq_none_iff 0, bindTyped]
  cases firstMismatch? 0 rest parameters arguments with
  | some fault => simp
  | none => simp [filled, eq_comm]

theorem bindParameters_ok_iff {set : Option String} :
    bindParameters parameters set arguments = .ok bindings ↔
      Suits parameters arguments ∧
        bindings = ⟨filled parameters arguments, arguments.length, set⟩ := by
  have hs : Suits parameters arguments ↔
      ¬ (arguments.length < requiredCount parameters ∨ parameters.length < arguments.length) ∧
        Typed parameters none arguments := by
    constructor
    · intro h
      exact ⟨by have := h.enough; have := h.atMost; omega, h.typed, nofun⟩
    · rintro ⟨hc, h⟩
      exact ⟨by omega, by omega, h.positions⟩
  rw [bindParameters, hs]
  by_cases hc : arguments.length < requiredCount parameters ∨ parameters.length < arguments.length
  · simp [hc]
  · simp only [hc, if_false, not_false_eq_true, true_and]
    exact bindTyped_ok_iff

/-- Parameters as they are declared: the optional ones stand at the end, and their defaults are of their
types. -/
structure InOrder (parameters : List Parameter) : Prop where
  optional : ∀ p ∈ parameters.drop (requiredCount parameters), p.isOptional = true
  defaults : ∀ p ∈ parameters, ∀ v, p.default = some v → p.dataType.accepts v = true

theorem parametersFault?_eq_none_iff : parametersFault? parameters = none ↔ InOrder parameters := by
  unfold parametersFault?
  by_cases ho : (parameters.drop (requiredCount parameters)).any (!·.isOptional) = true
  · simp only [ho, if_true, reduceCtorEq, false_iff]
    obtain ⟨p, hp, hn⟩ := List.any_eq_true.mp ho
    intro h
    simp [h.optional p hp] at hn
  · have hoptional : ∀ p ∈ parameters.drop (requiredCount parameters), p.isOptional = true := by
      simpa using ho
    simp only [ho, if_false, Bool.false_eq_true, List.findSome?_eq_none_iff]
    constructor
    · intro h
      refine ⟨hoptional, fun p hp v hv => ?_⟩
      simpa [hv] using h p hp
    · intro h p hp
      cases hv : p.default with
      | none => rfl
      | some v => simp [h.defaults p hp v hv]

/-! ## Values after matching -/

theorem getElem?_filled {i : Nat} (hi : arguments.length ≤ i) :
    (filled parameters arguments)[i]? = parameters[i]?.map (·.fallback) := by
  rw [filled, List.getElem?_append_right hi, List.getElem?_map, List.getElem?_drop,
    Nat.add_sub_cancel' hi]

theorem getElem?_filled_of_lt {i : Nat} (hi : i < arguments.length) :
    (filled parameters arguments)[i]? = arguments[i]? :=
  List.getElem?_append_left hi

theorem length_filled :
    (filled parameters arguments).length = max arguments.length parameters.length := by
  simp only [filled, List.length_append, List.length_map, List.length_drop]
  omega

section

variable (ho : InOrder parameters) (he : requiredCount parameters ≤ arguments.length)
include ho he

/-- Beyond the arguments stand the declared defaults. -/
theorem InOrder.default_of_filled {i : Nat} {v : Value} (hi : arguments.length ≤ i)
    (hv : (filled parameters arguments)[i]? = some v) :
    ∃ p, parameters[i]? = some p ∧ p.default = some v := by
  rw [getElem?_filled hi, Option.map_eq_some_iff] at hv
  obtain ⟨p, hp, rfl⟩ := hv
  have hm : p ∈ parameters.drop (requiredCount parameters) := by
    refine List.mem_of_getElem? (i := i - requiredCount parameters) ?_
    rw [List.getElem?_drop, Nat.add_sub_cancel' (Nat.le_trans he hi)]
    exact hp
  obtain ⟨v, hd⟩ := Option.isSome_iff_exists.mp (ho.optional p hm)
  exact ⟨p, hp, by rw [Parameter.fallback, hd]; rfl⟩

/-- Filling in defaults keeps the types of the arguments, and the defaults are of theirs. -/
theorem InOrder.typed_filled (ht : Typed parameters rest arguments) :
    Typed parameters rest (filled parameters arguments) where
  positions i p v hp hv := by
    by_cases hi : i < arguments.length
    · rw [getElem?_filled_of_lt hi] at hv
      exact ht.positions i p v hp hv
    · obtain ⟨q, hq, hd⟩ := ho.default_of_filled he (Nat.le_of_not_lt hi) hv
      cases hp.symm.trans hq
      exact ho.defaults p (List.mem_of_getElem? hp) v hd
  beyond type hr v hv := by
    -- Defaults are filled in only where the arguments do not reach beyond the parameters.
    have hn : ((parameters.drop arguments.length).map (·.fallback)).length ≤
        parameters.length - arguments.length := by simp
    rw [filled, List.drop_append, List.drop_eq_nil_of_le hn, List.append_nil] at hv
    exact ht.beyond type hr v hv

end

/-- The parameters that are in force for a number of arguments. Of several sets it is the first one that
takes the number. -/
def Arity.parametersFor (arity : Arity) (count : Nat) : List Parameter :=
  match arity with
  | .simple _ => []
  | .standard parameters => parameters
  | .parametric sets => ((sets.find? (·.admits count)).map (·.parameters)).getD []
  | .variadic leading _ => leading

/-- How many values are bound, given the parameters in force: only the arguments if these are not
declared one by one, one value for each parameter, or at least as many. -/
def Arity.Counts (arity : Arity) (arguments values : List Value) : Prop :=
  match arity with
  | .simple _ => values = arguments
  | .standard _ | .parametric _ => values.length = (arity.parametersFor arguments.length).length
  | .variadic .. => (arity.parametersFor arguments.length).length ≤ values.length

/-- Bindings as an arity declares them. First come the arguments, then the defaults of the parameters
for which there is none, and every value is of the type that is declared for its position. -/
structure WellBound (arity : Arity) (arguments : List Value) (bindings : Bindings) : Prop where
  supplied : bindings.supplied = arguments.length
  given : bindings.values.take arguments.length = arguments
  counts : arity.Counts arguments bindings.values
  chosen : ∀ sets, arity = .parametric sets →
    ∃ set, sets.find? (·.admits arguments.length) = some set ∧ bindings.set = some set.name
  typed : ∀ (i : Nat) (p : Parameter) (v : Value), (arity.parametersFor arguments.length)[i]? = some p →
    bindings.values[i]? = some v → p.dataType.accepts v = true
  tail : ∀ leading rest, arity = .variadic leading rest →
    ∀ v ∈ bindings.values.drop leading.length, rest.accepts v = true
  defaults : ∀ (i : Nat) (v : Value), arguments.length ≤ i → bindings.values[i]? = some v →
    ∃ p, (arity.parametersFor arguments.length)[i]? = some p ∧ p.default = some v

theorem take_filled : (filled parameters arguments).take arguments.length = arguments := by
  simp [filled]

theorem ParameterSet.fault?_eq_none {set : ParameterSet} (h : set.fault? = none) :
    InOrder set.parameters := by
  unfold fault? at h
  split at h
  · cases h
  · split at h
    · cases h
    · exact parametersFault?_eq_none_iff.mp ‹_›

theorem setsFault?_eq_none {seen : List String} {sets : List ParameterSet}
    (h : setsFault? seen sets = none) : ∀ set ∈ sets, set.fault? = none := by
  fun_induction setsFault? seen sets with
  | case1 => exact fun set hm => absurd hm List.not_mem_nil
  | case2 => cases h
  | case3 => cases h
  | case4 => cases h
  | case5 seen first rest hblank hseen hf ih => exact List.forall_mem_cons.mpr ⟨hf, ih h⟩

theorem Arity.inOrder_of_fault? {sets : List ParameterSet} (hf : (Arity.parametric sets).fault? = none) :
    ∀ set ∈ sets, InOrder set.parameters := by
  rw [fault?] at hf
  split at hf
  · cases hf
  · exact fun set hm => ParameterSet.fault?_eq_none (setsFault?_eq_none hf set hm)

theorem Suits.toTyped (h : Suits parameters arguments) : Typed parameters none arguments :=
  ⟨h.typed, fun _ hr => by cases hr⟩

/-- What is matched against an arity in order is bound as the arity declares. -/
theorem Arity.wellBound {arity : Arity} (hf : arity.fault? = none)
    (h : arity.bind arguments = .ok bindings) : WellBound arity arguments bindings := by
  cases arity with
  | simple count =>
    rw [bind] at h
    split at h
    · cases h
      exact {
        supplied := rfl
        given := List.take_length
        counts := rfl
        chosen := fun _ hs => Arity.noConfusion hs
        typed := fun i p v hp => by simp [parametersFor] at hp
        tail := fun _ _ hv => Arity.noConfusion hv
        defaults := fun i v hi hv => by simp [List.getElem?_eq_none hi] at hv }
    · cases h
  | standard parameters =>
    have ho : InOrder parameters := parametersFault?_eq_none_iff.mp hf
    obtain ⟨hs, rfl⟩ := bindParameters_ok_iff.mp h
    exact {
      supplied := rfl
      given := take_filled
      counts := length_filled.trans (Nat.max_eq_right hs.atMost)
      chosen := fun _ hs => Arity.noConfusion hs
      typed := (ho.typed_filled hs.enough hs.toTyped).positions
      tail := fun _ _ hv => Arity.noConfusion hv
      defaults := fun i v => ho.default_of_filled hs.enough }
  | parametric sets =>
    cases hset : sets.find? (·.admits arguments.length) with
    | none => simp [bind, hset] at h
    | some set =>
      have ho : InOrder set.parameters :=
        inOrder_of_fault? hf set (List.mem_of_find?_eq_some hset)
      have hforce : (Arity.parametric sets).parametersFor arguments.length = set.parameters := by
        simp [parametersFor, hset]
      simp only [bind, hset] at h
      obtain ⟨hs, rfl⟩ := bindParameters_ok_iff.mp h
      exact {
        supplied := rfl
        given := take_filled
        counts := by
          rw [Counts, hforce]
          exact length_filled.trans (Nat.max_eq_right hs.atMost)
        chosen := by
          rintro _ ⟨⟩
          exact ⟨set, hset, rfl⟩
        typed := by
          rw [hforce]
          exact (ho.typed_filled hs.enough hs.toTyped).positions
        tail := fun _ _ hv => Arity.noConfusion hv
        defaults := by
          rw [hforce]
          exact fun i v => ho.default_of_filled hs.enough }
  | variadic leading rest =>
    have ho : InOrder leading := parametersFault?_eq_none_iff.mp hf
    rw [bind] at h
    split at h
    · cases h
    · rename_i hn
      have he : requiredCount leading ≤ arguments.length := Nat.le_of_not_lt hn
      obtain ⟨ht, rfl⟩ := bindTyped_ok_iff.mp h
      have htyped := ho.typed_filled he ht
      exact {
        supplied := rfl
        given := take_filled
        counts := by
          rw [Counts, parametersFor, length_filled]
          exact Nat.le_max_right ..
        chosen := fun _ hs => Arity.noConfusion hs
        typed := htyped.positions
        tail := by
          rintro _ _ ⟨⟩
          exact htyped.beyond rest rfl
        defaults := fun i v => ho.default_of_filled he }

theorem matchArguments_ok_iff {name : String} {arity : Arity} :
    matchArguments name arity arguments = .ok bindings ↔ arity.bind arguments = .ok bindings := by
  rw [matchArguments]
  cases arity.bind arguments with
  | error fault => exact ⟨nofun, nofun⟩
  | ok bound =>
    constructor <;>
    · intro h
      cases h
      rfl

/-- A command that gets into a table is declared in order. -/
theorem CommandTable.fault?_of_register {table after : CommandTable} {command : Command}
    (h : table.register command = .ok after) : command.arity.fault? = none := by
  have hr : table.rejects? command = none := by
    rw [register] at h
    split at h
    · cases h
    · assumption
  have hf : command.fault? = none := by
    rw [rejects?] at hr
    split at hr
    · cases hr
    · assumption
  rw [Command.fault?] at hf
  split at hf
  · cases hf
  · split at hf
    · cases hf
    · exact hf

end ScriptEngine
