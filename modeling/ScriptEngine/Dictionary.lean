/-!
# Dictionaries

A `Dictionary` maps names to values and keeps its entries in the order of their names, each name once.
`insert` replaces the value of a name that is there already.
-/

namespace ScriptEngine

/-- A map from names to values, listed in the order of the names. -/
structure Dictionary (α : Type) where
  entries : List (String × α)
  ordered : entries.Pairwise (·.1 < ·.1)
  deriving DecidableEq, Repr

namespace Dictionary

variable {α β : Type}

/-- The dictionary without entries. -/
def empty : Dictionary α :=
  ⟨[], .nil⟩

/-- The value of a name. -/
def get? (d : Dictionary α) (name : String) : Option α :=
  d.entries.lookup name

/-- Whether a name has a value. -/
def contains (d : Dictionary α) (name : String) : Bool :=
  (d.get? name).isSome

/-- Entries in the order of names with one more, or with another value for its name. -/
def insertEntry (name : String) (value : α) : List (String × α) → List (String × α)
  | [] => [(name, value)]
  | (other, kept) :: rest =>
    if name = other then (name, value) :: rest
    else if name < other then (name, value) :: (other, kept) :: rest
    else (other, kept) :: insertEntry name value rest

theorem mem_insertEntry {name : String} {value : α} {entries : List (String × α)} {entry : String × α}
    (h : entry ∈ insertEntry name value entries) : entry = (name, value) ∨ entry ∈ entries := by
  induction entries with
  | nil => exact .inl (List.mem_singleton.mp h)
  | cons first rest ih =>
    unfold insertEntry at h
    grind

theorem pairwise_insertEntry {entries : List (String × α)} (h : entries.Pairwise (·.1 < ·.1))
    (name : String) (value : α) : (insertEntry name value entries).Pairwise (·.1 < ·.1) := by
  induction entries with
  | nil => exact List.pairwise_singleton ..
  | cons first rest ih =>
    obtain ⟨other, kept⟩ := first
    obtain ⟨hfirst, hrest⟩ := List.pairwise_cons.mp h
    unfold insertEntry
    split
    · rename_i he
      subst he
      exact .cons hfirst hrest
    · rename_i hne
      split
      · rename_i hlt
        refine .cons (fun entry hm => ?_) h
        rcases List.mem_cons.mp hm with rfl | hm
        · exact hlt
        · exact String.lt_trans hlt (hfirst entry hm)
      · rename_i hnlt
        have hlt : other < name :=
          Classical.not_not.mp fun hn => hne (String.le_antisymm hn hnlt)
        refine .cons (fun entry hm => ?_) (ih hrest)
        rcases mem_insertEntry hm with rfl | hm
        · exact hlt
        · exact hfirst entry hm

/-- Gives a name a value. -/
def insert (d : Dictionary α) (name : String) (value : α) : Dictionary α :=
  ⟨insertEntry name value d.entries, pairwise_insertEntry d.ordered name value⟩

/-- The dictionary of a list of pairs. The last pair of a name counts. -/
def ofList (pairs : List (String × α)) : Dictionary α :=
  pairs.foldl (fun d pair => d.insert pair.1 pair.2) empty

/-- All entries of `d` and `other`. The second one counts where both have a name. -/
def union (d other : Dictionary α) : Dictionary α :=
  other.entries.foldl (fun d entry => d.insert entry.1 entry.2) d

/-- The names in order. -/
def keys (d : Dictionary α) : List String :=
  d.entries.map (·.1)

/-- The values in the order of their names. -/
def values (d : Dictionary α) : List α :=
  d.entries.map (·.2)

/-- Number of entries. -/
def size (d : Dictionary α) : Nat :=
  d.entries.length

/-- Applies a function to every value. -/
def map (f : α → β) (d : Dictionary α) : Dictionary β :=
  ⟨d.entries.map fun entry => (entry.1, f entry.2), List.pairwise_map.mpr d.ordered⟩

end Dictionary

end ScriptEngine
