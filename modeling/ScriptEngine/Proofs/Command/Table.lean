import ScriptEngine.Command.Table
import ScriptEngine.Proofs.Dictionary
import ScriptEngine.Proofs.Text

/-!
# The command table under registrations

A table keeps its commands in a list and their keys in an index. `CommandTable.Consistent` says that the
two are in step: the index maps the keys of the commands, each to the position of its command, and no key
occurs twice. It holds of the empty table and is kept by every registration
(`CommandTable.Consistent.register`), and so it holds after any number of them, of which some may have
failed (`CommandTable.Consistent.offerAll`).

In a consistent table a registration succeeds exactly if the declaration is in order and its keys are
new (`CommandTable.Consistent.register_ok_iff`), and a command is found exactly by its name and its alias
(`CommandTable.Consistent.lookup_iff`). `command_table_stays_consistent` puts these together.
-/

namespace ScriptEngine

open Text (SameName)

theorem commandKey_eq_iff {name other : String} :
    commandKey name = commandKey other ↔ SameName name other :=
  Text.lower_eq_iff

@[simp] theorem commandKey_commandKey (name : String) : commandKey (commandKey name) = commandKey name :=
  Text.lower_lower name

namespace Command

/-- A name is that of a command or its alias, but for the case of letters. -/
def IsCalled (command : Command) (name : String) : Prop :=
  SameName name command.name ∨ ∃ nickname, command.nickname = some nickname ∧ SameName name nickname

theorem mem_keys {command : Command} {key : String} :
    key ∈ command.keys ↔ key = commandKey command.name ∨
      ∃ nickname, command.nickname = some nickname ∧ key = commandKey nickname := by
  simp [keys, Option.mem_toList, Option.map_eq_some_iff, eq_comm]

theorem commandKey_mem_keys {command : Command} {name : String} :
    commandKey name ∈ command.keys ↔ command.IsCalled name := by
  simp only [mem_keys, commandKey_eq_iff, IsCalled]

theorem commandKey_of_mem_keys {command : Command} {key : String} (h : key ∈ command.keys) :
    commandKey key = key := by
  obtain rfl | ⟨nickname, -, rfl⟩ := mem_keys.mp h
  · exact commandKey_commandKey _
  · exact commandKey_commandKey _

/-- The alias of a command is another name. -/
def HasOwnAlias (command : Command) : Prop :=
  ∀ nickname, command.nickname = some nickname → ¬ SameName nickname command.name

theorem hasOwnAlias_iff {command : Command} :
    command.HasOwnAlias ↔ command.nickname.map commandKey ≠ some (commandKey command.name) := by
  cases hn : command.nickname with
  | none => simp [HasOwnAlias, hn]
  | some nickname => simp [HasOwnAlias, hn, commandKey_eq_iff]

theorem HasOwnAlias.nodup_keys {command : Command} (h : command.HasOwnAlias) : command.keys.Nodup := by
  rw [hasOwnAlias_iff] at h
  rw [keys]
  cases hn : command.nickname with
  | none => simp
  | some nickname => simpa [hn, eq_comm] using h

end Command

namespace CommandTable

variable {table after : CommandTable} {command : Command}

/-! ## Consistent tables -/

/-- The commands of a table and its index are in step. -/
structure Consistent (table : CommandTable) : Prop where
  /-- The index maps the keys of the commands and nothing else, each to the position of its command. -/
  index_iff : ∀ key position, table.index.get? key = some position ↔
    ∃ command, table.commands[position]? = some command ∧ key ∈ command.keys
  /-- Neither two commands nor the name and the alias of one command share a key. -/
  nodup : (table.commands.flatMap (·.keys)).Nodup

theorem consistent_empty : empty.Consistent where
  index_iff key position := by simp [empty, Dictionary.empty, Dictionary.get?]
  nodup := .nil

/-- No key of a command is taken. -/
def Free (table : CommandTable) (command : Command) : Prop :=
  ∀ key ∈ command.keys, table.index.get? key = none

theorem Consistent.get?_of_mem_keys (h : table.Consistent) {key : String}
    (hk : key ∈ table.commands.flatMap (·.keys)) : ∃ position, table.index.get? key = some position := by
  obtain ⟨command, hc, hm⟩ := List.mem_flatMap.mp hk
  obtain ⟨position, hp⟩ := List.mem_iff_getElem?.mp hc
  exact ⟨position, (h.index_iff key position).mpr ⟨command, hp, hm⟩⟩

theorem lookup_eq_some {name : String} :
    table.lookup name = some command ↔
      ∃ position, table.index.get? (commandKey name) = some position ∧
        table.commands[position]? = some command :=
  Option.bind_eq_some_iff

/-- A command is found by its name and its alias, and no other command is. -/
theorem Consistent.lookup_iff (h : table.Consistent) {name : String} :
    table.lookup name = some command ↔ command ∈ table.commands ∧ command.IsCalled name := by
  rw [← Command.commandKey_mem_keys]
  constructor
  · intro hl
    obtain ⟨position, hi, hc⟩ := lookup_eq_some.mp hl
    obtain ⟨owner, ho, hk⟩ := (h.index_iff _ _).mp hi
    cases hc.symm.trans ho
    exact ⟨List.mem_of_getElem? hc, hk⟩
  · rintro ⟨hm, hk⟩
    obtain ⟨position, hp⟩ := List.mem_iff_getElem?.mp hm
    exact lookup_eq_some.mpr ⟨position, (h.index_iff _ _).mpr ⟨command, hp, hk⟩, hp⟩

theorem Consistent.lookup_eq_none (h : table.Consistent) {name : String} :
    table.lookup name = none ↔ table.index.get? (commandKey name) = none := by
  cases hi : table.index.get? (commandKey name) with
  | none => simp [lookup, hi]
  | some position =>
    obtain ⟨owner, ho, -⟩ := (h.index_iff _ _).mp hi
    simp [lookup, hi, ho]

theorem Consistent.rejects?_eq_none (h : table.Consistent) :
    table.rejects? command = none ↔
      command.fault? = none ∧ command.HasOwnAlias ∧ table.Free command := by
  have hfree : table.Free command ↔ ∀ key ∈ command.keys, table.lookup key = none := by
    refine forall₂_congr fun key hk => ?_
    rw [h.lookup_eq_none, Command.commandKey_of_mem_keys hk]
  rw [rejects?, Command.hasOwnAlias_iff, hfree]
  cases command.fault? with
  | some fault => simp
  | none =>
    by_cases ha : command.nickname.map commandKey = some (commandKey command.name)
    · simp [ha]
    · simp [ha, List.findSome?_eq_none_iff]

/-- The table with one more command. -/
def append (table : CommandTable) (command : Command) : CommandTable :=
  ⟨table.commands ++ [command],
    command.keys.foldl (fun index key => index.insert key table.size) table.index⟩

theorem Consistent.register_ok_iff (h : table.Consistent) :
    table.register command = .ok after ↔
      (command.fault? = none ∧ command.HasOwnAlias ∧ table.Free command) ∧
        after = table.append command := by
  rw [← h.rejects?_eq_none, register]
  cases table.rejects? command with
  | some cause => simp
  | none => simp [append, eq_comm]

theorem get?_insertAll (index : Dictionary Nat) (keys : List String) (position : Nat) (key : String) :
    (keys.foldl (fun index key => index.insert key position) index).get? key =
      if key ∈ keys then some position else index.get? key := by
  induction keys generalizing index with
  | nil => simp
  | cons first rest ih =>
    rw [List.foldl_cons, ih]
    by_cases hr : key ∈ rest
    · simp [hr]
    · by_cases hf : key = first
      · simp [hf, Dictionary.get?_insert_self]
      · simp [hr, hf, Dictionary.get?_insert_other index hf]

theorem getElem?_concat_eq_some {α : Type} {items : List α} {last item : α} {position : Nat} :
    (items ++ [last])[position]? = some item ↔
      items[position]? = some item ∨ (position = items.length ∧ item = last) := by
  rcases Nat.lt_trichotomy position items.length with hp | rfl | hp
  · rw [List.getElem?_append_left hp]
    exact (or_iff_left fun h => Nat.ne_of_lt hp h.1).symm
  · simp [eq_comm]
  · have hl : (items ++ [last]).length ≤ position := by
      rw [List.length_append]
      exact hp
    rw [List.getElem?_eq_none hl, List.getElem?_eq_none (Nat.le_of_lt hp)]
    exact iff_of_false nofun (by simp [Nat.ne_of_gt hp])

/-- A command with keys of its own that are not taken keeps a table consistent. -/
theorem Consistent.append (h : table.Consistent) (ha : command.HasOwnAlias) (hf : table.Free command) :
    (table.append command).Consistent where
  index_iff key position := by
    simp only [CommandTable.append, get?_insertAll, getElem?_concat_eq_some]
    by_cases hk : key ∈ command.keys
    · -- The key is new, so it belongs to the last command only.
      have hn : table.index.get? key ≠ some position := by
        rw [hf key hk]
        nofun
      rw [Ne, h.index_iff] at hn
      rw [if_pos hk]
      constructor
      · rintro ⟨⟩
        exact ⟨command, .inr ⟨rfl, rfl⟩, hk⟩
      · rintro ⟨owner, ho | ⟨rfl, rfl⟩, hm⟩
        · exact absurd ⟨owner, ho, hm⟩ hn
        · rfl
    · rw [if_neg hk, h.index_iff]
      constructor
      · rintro ⟨owner, ho, hm⟩
        exact ⟨owner, .inl ho, hm⟩
      · rintro ⟨owner, ho | ⟨-, rfl⟩, hm⟩
        · exact ⟨owner, ho, hm⟩
        · exact absurd hm hk
  nodup := by
    simp only [CommandTable.append, List.flatMap_append, List.flatMap_singleton, List.nodup_append]
    refine ⟨h.nodup, ha.nodup_keys, ?_⟩
    rintro key hm _ hk rfl
    obtain ⟨position, hi⟩ := h.get?_of_mem_keys hm
    rw [hf key hk] at hi
    cases hi

/-- The table after a command was offered to it. A command that is rejected leaves it as it was. -/
def offer (table : CommandTable) (command : Command) : CommandTable :=
  match table.register command with
  | .ok after => after
  | .error _ => table

/-- The table after commands were offered to it one after the other. -/
def offerAll (table : CommandTable) (commands : List Command) : CommandTable :=
  commands.foldl offer table

/-- What is offered to a table is appended to it or leaves it as it was. -/
theorem Consistent.offer_cases (h : table.Consistent) (command : Command) :
    ((command.fault? = none ∧ command.HasOwnAlias ∧ table.Free command) ∧
      table.offer command = table.append command) ∨ table.offer command = table := by
  rw [offer]
  cases hr : table.register command with
  | error cause => exact .inr rfl
  | ok after => exact .inl (h.register_ok_iff.mp hr)

theorem Consistent.offer (h : table.Consistent) (command : Command) :
    (table.offer command).Consistent := by
  rcases h.offer_cases command with ⟨⟨-, ha, hf⟩, ho⟩ | ho
  · rw [ho]
    exact h.append ha hf
  · rwa [ho]

theorem Consistent.offerAll (h : table.Consistent) (commands : List Command) :
    (table.offerAll commands).Consistent := by
  induction commands generalizing table with
  | nil => exact h
  | cons first rest ih => exact ih (h.offer first)

/-- Commands stay in a table to which others are offered. -/
theorem Consistent.mem_offerAll (h : table.Consistent) (hm : command ∈ table.commands)
    (commands : List Command) : command ∈ (table.offerAll commands).commands := by
  induction commands generalizing table with
  | nil => exact hm
  | cons first rest ih =>
    refine ih (h.offer first) ?_
    rcases h.offer_cases first with ⟨-, ho⟩ | ho
    · rw [ho]
      exact List.mem_append_left _ hm
    · rwa [ho]

end CommandTable

/-- The command table stays consistent, whatever commands are offered to it, some with success and some
without. Its index maps exactly the keys of its commands, each to the position of its command, and no key
occurs twice. A registration succeeds exactly if the declaration is in order, the alias is another name
and no key is taken. If it fails it leaves the table as it was, and if it succeeds it appends the command
as it is. So a name finds a command exactly if it is its name or its alias but for the case of letters,
and what a name finds stays the same from then on. -/
theorem command_table_stays_consistent (offered : List Command) :
    let table := CommandTable.empty.offerAll offered
    table.Consistent ∧
    (∀ command, (∃ after, table.register command = .ok after) ↔
      command.fault? = none ∧ command.HasOwnAlias ∧ table.Free command) ∧
    (∀ command cause, table.register command = .error cause → table.offer command = table) ∧
    (∀ command after, table.register command = .ok after →
      table.offer command = after ∧ after.commands = table.commands ++ [command]) ∧
    (∀ name command, table.lookup name = some command ↔
      command ∈ table.commands ∧ command.IsCalled name) ∧
    ∀ name command later, table.lookup name = some command →
      (table.offerAll later).lookup name = some command := by
  intro table
  have hc : table.Consistent := CommandTable.consistent_empty.offerAll offered
  refine ⟨hc, fun command => ?_, fun command cause hr => ?_, fun command after hr => ?_,
    fun name command => hc.lookup_iff, fun name command later hl => ?_⟩
  · constructor
    · rintro ⟨after, hr⟩
      exact (hc.register_ok_iff.mp hr).1
    · exact fun h => ⟨_, hc.register_ok_iff.mpr ⟨h, rfl⟩⟩
  · rw [CommandTable.offer, hr]
  · obtain ⟨-, ha⟩ := hc.register_ok_iff.mp hr
    rw [CommandTable.offer, hr, ha]
    exact ⟨rfl, rfl⟩
  · obtain ⟨hm, hn⟩ := hc.lookup_iff.mp hl
    exact (hc.offerAll later).lookup_iff.mpr ⟨hc.mem_offerAll hm later, hn⟩

/-- A command that takes no arguments and does nothing. -/
def idleCommand (name : String) (nickname : Option String) : Command where
  name
  nickname
  arity := .simple 0
  returnType := .invalid
  handler _ := .ok (.value .invalid)

/-- Commands of which some clash with others, repeat their own name or have none that is allowed. -/
def clashing : List Command :=
  [idleCommand "Break" none, idleCommand "break" none, idleCommand "Halt" (some "BREAK"),
    idleCommand "Stop" (some "stop"), idleCommand "Print To" none, idleCommand "Halt" (some "Hold")]

/-- The two that are left are found by all their names, also after the clashing ones were offered again. -/
theorem clashing_leave_two :
    let table := CommandTable.empty.offerAll clashing
    table.Consistent ∧ table.commands = [idleCommand "Break" none, idleCommand "Halt" (some "Hold")] ∧
      table.lookup "hOLD" = some (idleCommand "Halt" (some "Hold")) ∧
      (table.offerAll clashing).lookup "hOLD" = some (idleCommand "Halt" (some "Hold")) ∧
      ¬ ∃ after, table.register (idleCommand "Hold" none) = .ok after := by
  intro table
  obtain ⟨hc, hregister, -, -, hlookup, hstays⟩ := command_table_stays_consistent clashing
  have hcommands : table.commands = [idleCommand "Break" none, idleCommand "Halt" (some "Hold")] := rfl
  have hfound : table.lookup "hOLD" = some (idleCommand "Halt" (some "Hold")) := by
    refine (hlookup _ _).mpr ⟨?_, ?_⟩
    · rw [hcommands]
      exact List.mem_cons_of_mem _ (List.mem_cons_self ..)
    · exact Command.commandKey_mem_keys.mp (by decide +kernel)
  refine ⟨hc, hcommands, hfound, hstays _ _ _ hfound, fun hr => ?_⟩
  have hfree := ((hregister _).mp hr).2.2 "hold" (by decide +kernel)
  exact absurd hfree (by decide +kernel)

end ScriptEngine
