import Mathlib.Data.List.Perm.Subperm
import ScriptEngine.Dictionary

/-!
# Laws of dictionaries

How looking up a name depends on what was inserted: `get?_insert_self` and `get?_insert_other`. As the
entries are in the order of their names, they are what can be looked up (`mem_entries_iff`), and what is
found in a union is what is found in its second part or else in its first part (`get?_union`).

The dictionary of a list of pairs has the names of the pairs (`mem_keys_ofList`), each with the value of
its last pair (`get?_ofList_last`). So it has as many entries as the list exactly if no two pairs have the
same name (`size_ofList_eq_iff`).
-/

namespace ScriptEngine.Dictionary

variable {α β : Type}

theorem lookup_insertEntry_self (name : String) (value : α) (entries : List (String × α)) :
    (insertEntry name value entries).lookup name = some value := by
  induction entries with
  | nil => simp [insertEntry]
  | cons entry rest ih =>
    obtain ⟨other, kept⟩ := entry
    unfold insertEntry
    split
    · simp
    · rename_i hne
      split
      · simp
      · rw [List.lookup_cons, beq_eq_false_iff_ne.mpr hne]
        exact ih

theorem lookup_insertEntry_other {name wanted : String} (h : wanted ≠ name) (value : α)
    (entries : List (String × α)) :
    (insertEntry name value entries).lookup wanted = entries.lookup wanted := by
  have hb : (wanted == name) = false := beq_eq_false_iff_ne.mpr h
  induction entries with
  | nil => simp [insertEntry, List.lookup_cons, hb]
  | cons entry rest ih =>
    obtain ⟨other, kept⟩ := entry
    unfold insertEntry
    split
    · rename_i he
      subst he
      simp only [List.lookup_cons, hb]
    · split
      · rw [List.lookup_cons, hb]
      · simp only [List.lookup_cons, ih]

theorem get?_insert_self (d : Dictionary α) (name : String) (value : α) :
    (d.insert name value).get? name = some value :=
  lookup_insertEntry_self name value d.entries

theorem get?_insert_other (d : Dictionary α) {name wanted : String} (h : wanted ≠ name)
    (value : α) : (d.insert name value).get? wanted = d.get? wanted :=
  lookup_insertEntry_other h value d.entries

theorem mem_values_of_get? {d : Dictionary α} {name : String} {value : α}
    (h : d.get? name = some value) : value ∈ d.values := by
  obtain ⟨before, after, he, -⟩ := List.lookup_eq_some_iff.mp h
  rw [values, he, List.map_append]
  exact List.mem_append_right _ (List.mem_cons_self ..)

theorem get?_map (f : α → β) (d : Dictionary α) (name : String) :
    (d.map f).get? name = (d.get? name).map f := by
  simp only [get?, map]
  induction d.entries with
  | nil => rfl
  | cons entry rest ih =>
    obtain ⟨key, value⟩ := entry
    simp only [List.map_cons, List.lookup_cons]
    cases name == key with
    | true => rfl
    | false => exact ih

theorem pairwise_keys (d : Dictionary α) : d.keys.Pairwise (· < ·) :=
  List.pairwise_map.mpr d.ordered

theorem nodup_keys (d : Dictionary α) : d.keys.Nodup := by
  refine List.Pairwise.imp (fun {key later} hlt he => ?_) d.pairwise_keys
  exact String.lt_irrefl later (he ▸ hlt)

/-- The entries of a dictionary are what is found in it. -/
theorem mem_entries_iff {d : Dictionary α} {name : String} {value : α} :
    (name, value) ∈ d.entries ↔ d.get? name = some value := by
  rw [get?, List.lookup_eq_some_iff]
  constructor
  · intro hm
    obtain ⟨before, after, he⟩ := List.append_of_mem hm
    refine ⟨before, after, he, fun entry hb => bne_iff_ne.mpr fun hn => ?_⟩
    have hordered := d.ordered
    rw [he, List.pairwise_append] at hordered
    have hlt := hordered.2.2 entry hb (name, value) List.mem_cons_self
    rw [← hn] at hlt
    exact String.lt_irrefl _ hlt
  · rintro ⟨before, after, he, -⟩
    rw [he]
    exact List.mem_append_right _ List.mem_cons_self

/-! ## Many insertions -/

theorem get?_foldl_insert (d : Dictionary α) {pairs : List (String × α)}
    (h : pairs.Pairwise (·.1 < ·.1)) (name : String) :
    (pairs.foldl (fun d pair => d.insert pair.1 pair.2) d).get? name =
      (pairs.lookup name).or (d.get? name) := by
  induction pairs generalizing d with
  | nil => rfl
  | cons pair rest ih =>
    obtain ⟨key, value⟩ := pair
    obtain ⟨hfirst, hrest⟩ := List.pairwise_cons.mp h
    rw [List.foldl_cons, ih (d.insert key value) hrest]
    by_cases hk : name = key
    · -- The name does not occur again, so its value stays.
      subst hk
      have hn : rest.lookup name = none := List.lookup_eq_none_iff.mpr fun later hm => by
        have hlt := hfirst later hm
        exact bne_iff_ne.mpr fun he => String.lt_irrefl name (he ▸ hlt)
      rw [get?_insert_self]
      simp [hn]
    · rw [get?_insert_other d hk]
      simp only [List.lookup_cons, beq_eq_false_iff_ne.mpr hk]

theorem get?_union (d other : Dictionary α) (name : String) :
    (d.union other).get? name = (other.get? name).or (d.get? name) :=
  get?_foldl_insert d other.ordered name

theorem get?_foldl_insert_other (d : Dictionary α) {pairs : List (String × α)} {name : String}
    (h : ∀ pair ∈ pairs, pair.1 ≠ name) :
    (pairs.foldl (fun d pair => d.insert pair.1 pair.2) d).get? name = d.get? name := by
  induction pairs generalizing d with
  | nil => rfl
  | cons pair rest ih =>
    obtain ⟨hpair, hrest⟩ := List.forall_mem_cons.mp h
    rw [List.foldl_cons, ih _ hrest, get?_insert_other d hpair.symm]

/-- Of several pairs with one name the last one counts. -/
theorem get?_ofList_last {pairs : List (String × α)} {i : Nat} {name : String} {value : α}
    (hi : pairs[i]? = some (name, value))
    (hl : ∀ j pair, i < j → pairs[j]? = some pair → pair.1 ≠ name) :
    (ofList pairs).get? name = some value := by
  obtain ⟨hlt, he⟩ := List.getElem?_eq_some_iff.mp hi
  have hsplit : pairs = pairs.take i ++ (name, value) :: pairs.drop (i + 1) := by
    rw [← he, ← List.drop_eq_getElem_cons hlt, List.take_append_drop]
  have hlater : ∀ pair ∈ pairs.drop (i + 1), pair.1 ≠ name := by
    intro pair hm
    obtain ⟨k, hk⟩ := List.mem_iff_getElem?.mp hm
    rw [List.getElem?_drop] at hk
    exact hl _ pair (by omega) hk
  rw [hsplit, ofList, List.foldl_append, List.foldl_cons, get?_foldl_insert_other _ hlater,
    get?_insert_self]

theorem mem_keys_insert {d : Dictionary α} {name key : String} {value : α} :
    key ∈ (d.insert name value).keys ↔ key = name ∨ key ∈ d.keys := by
  simp only [keys, insert]
  induction d.entries with
  | nil => simp [insertEntry]
  | cons entry rest ih =>
    obtain ⟨other, kept⟩ := entry
    unfold insertEntry
    split
    · rename_i he
      simp [he]
    · split
      · simp
      · simp only [List.map_cons, List.mem_cons, ih]
        exact or_left_comm

theorem mem_keys_foldl_insert {d : Dictionary α} {pairs : List (String × α)} {key : String} :
    key ∈ (pairs.foldl (fun d pair => d.insert pair.1 pair.2) d).keys ↔
      key ∈ pairs.map (·.1) ∨ key ∈ d.keys := by
  induction pairs generalizing d with
  | nil => simp
  | cons pair rest ih =>
    rw [List.foldl_cons, ih, mem_keys_insert, List.map_cons, List.mem_cons]
    exact or_left_comm.trans or_assoc.symm

theorem mem_keys_ofList {pairs : List (String × α)} {key : String} :
    key ∈ (ofList pairs).keys ↔ key ∈ pairs.map (·.1) := by
  rw [ofList, mem_keys_foldl_insert]
  exact or_iff_left List.not_mem_nil

/-- A dictionary of a list has an entry for each pair exactly if the names of the pairs are distinct. -/
theorem size_ofList_eq_iff (pairs : List (String × α)) :
    (ofList pairs).size = pairs.length ↔ (pairs.map (·.1)).Nodup := by
  have hkeys : (ofList pairs).keys.Nodup := nodup_keys _
  have hsize : (ofList pairs).keys.length = (ofList pairs).size := List.length_map ..
  have hlength : (pairs.map (·.1)).length = pairs.length := List.length_map ..
  have hsub : (ofList pairs).keys ⊆ pairs.map (·.1) := fun key hk => mem_keys_ofList.mp hk
  constructor
  · intro h
    have hperm : (ofList pairs).keys.Perm (pairs.map (·.1)) :=
      (hkeys.subperm hsub).perm_of_length_le (by omega)
    exact hperm.nodup_iff.mp hkeys
  · intro h
    have hsuper : pairs.map (·.1) ⊆ (ofList pairs).keys := fun key hk => mem_keys_ofList.mpr hk
    have hle := (hkeys.subperm hsub).length_le
    have hge := (h.subperm hsuper).length_le
    omega

end ScriptEngine.Dictionary
