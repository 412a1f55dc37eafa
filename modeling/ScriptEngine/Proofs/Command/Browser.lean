import Mathlib.Data.List.Infix
import ScriptEngine.Command.Browser
import ScriptEngine.Command.General
import ScriptEngine.Proofs.Text

/-!
# The selection of a browser

Keys change the filter and the selection of a browser one by one, while the entries that are shown follow
from the filter. Each key keeps the selection on one of them (`Browser.valid_press`), and so do all keys
together (`Browser.valid_after`). What is shown are the entries with a name that contains the filter,
capital or small (`Browser.mem_visible`); a longer filter shows fewer of them (`Browser.visible_type`), and
erasing what was typed shows them again (`Browser.erase_type`).
-/

namespace ScriptEngine

namespace Text

theorem occursIn_iff {pattern cs : List Char} : occursIn pattern cs = true ↔ pattern <:+: cs := by
  induction cs with
  | nil => rw [occursIn, List.isEmpty_iff, List.infix_nil]
  | cons c cs ih => rw [occursIn, Bool.or_eq_true, List.isPrefixOf_iff_prefix, ih, List.infix_cons_iff]

/-- A text has in one place the characters of another one, capital or small. -/
def ContainsLetters (text part : List Char) : Prop :=
  ∃ before found after, text = before ++ found ++ after ∧ List.Forall₂ SameLetter found part

theorem occursIn_map_toLower {part text : List Char} :
    occursIn (part.map Char.toLower) (text.map Char.toLower) = true ↔ ContainsLetters text part := by
  have hsame (found : List Char) : part.map Char.toLower = found.map Char.toLower ↔
      List.Forall₂ SameLetter found part := by
    rw [eq_comm, ← List.forall₂_eq_eq_eq, List.forall₂_map_left_iff, List.forall₂_map_right_iff]
    simp only [toLower_eq_iff]
  rw [occursIn_iff, List.infix_map_iff]
  constructor
  · rintro ⟨found, ⟨before, after, ht⟩, hf⟩
    exact ⟨before, found, after, ht.symm, (hsame found).mp hf⟩
  · rintro ⟨before, found, after, ht, hf⟩
    exact ⟨found, ⟨before, after, ht.symm⟩, (hsame found).mpr hf⟩

/-- What contains a text contains its beginning. -/
theorem ContainsLetters.of_append {text part more : List Char} (h : ContainsLetters text (part ++ more)) :
    ContainsLetters text part := by
  obtain ⟨before, found, after, ht, hf⟩ := h
  refine ⟨before, found.take part.length, found.drop part.length ++ after, ?_,
    List.forall₂_take_append found part more hf⟩
  rw [ht, List.append_assoc, List.append_assoc, ← List.append_assoc (List.take _ _), List.take_append_drop]

end Text

/-- The name or the nickname of an entry contains a filter. -/
def ReferenceEntry.Matches (entry : ReferenceEntry) (filter : List Char) : Prop :=
  Text.ContainsLetters entry.name.toList filter ∨
    ∃ nickname ∈ entry.nickname, Text.ContainsLetters nickname.toList filter

theorem ReferenceEntry.contains_iff {entry : ReferenceEntry} {filter : List Char} :
    entry.contains filter = true ↔ entry.Matches filter := by
  simp only [contains, Matches, Bool.or_eq_true, Option.any_eq_true, Text.occursIn_map_toLower,
    Option.mem_def]

theorem ReferenceEntry.Matches.of_append {entry : ReferenceEntry} {filter more : List Char}
    (h : entry.Matches (filter ++ more)) : entry.Matches filter := by
  rcases h with hname | ⟨nickname, hmem, hnickname⟩
  · exact .inl hname.of_append
  · exact .inr ⟨nickname, hmem, hnickname.of_append⟩

namespace Browser

variable {browser : Browser}

theorem mem_visible {entry : ReferenceEntry} :
    entry ∈ browser.visible ↔ entry ∈ browser.entries ∧ entry.Matches browser.filter := by
  rw [visible, List.mem_filter, ReferenceEntry.contains_iff]

theorem visible_sublist (browser : Browser) : browser.visible.Sublist browser.entries :=
  List.filter_sublist

/-- One more character shows no entry that was not shown before. -/
theorem visible_type (browser : Browser) (c : Char) : (browser.type c).visible.Sublist browser.visible := by
  refine List.monotone_filter_right browser.entries fun entry h => ?_
  rw [ReferenceEntry.contains_iff] at h ⊢
  exact h.of_append

/-- Erasing what was typed leads back to the first entry that was shown before. -/
theorem erase_type (browser : Browser) (c : Char) :
    (browser.type c).erase = { browser with selected := 0 } := by
  rw [erase, type, List.dropLast_concat]

/-! ## The selection -/

/-- The selected index is that of an entry that is shown, and zero if none is shown. -/
def Valid (browser : Browser) : Prop :=
  browser.selected ≤ browser.visible.length - 1

theorem valid_start (entries : List ReferenceEntry) : ({ entries } : Browser).Valid :=
  Nat.zero_le _

theorem Valid.lt_length (h : browser.Valid) (hv : browser.visible ≠ []) :
    browser.selected < browser.visible.length := by
  have hpos := List.length_pos_iff.mpr hv
  unfold Valid at h
  omega

theorem Valid.eq_zero (h : browser.Valid) (hv : browser.visible = []) : browser.selected = 0 := by
  rw [Valid, hv] at h
  exact Nat.le_zero.mp h

/-- The selected entry is one of those that are shown. -/
theorem Valid.current (h : browser.Valid) (hv : browser.visible ≠ []) :
    ∃ entry, browser.current = some entry ∧ entry.Matches browser.filter := by
  have hlt := h.lt_length hv
  refine ⟨browser.visible[browser.selected], List.getElem?_eq_getElem hlt, ?_⟩
  exact (mem_visible.mp (List.getElem_mem hlt)).2

theorem Valid.moveUp (h : browser.Valid) : browser.moveUp.Valid := by
  show browser.selected - 1 ≤ browser.visible.length - 1
  unfold Valid at h
  omega

theorem Valid.moveDown (h : browser.Valid) : browser.moveDown.Valid := by
  simp only [Browser.moveDown]
  split
  · exact h
  · show min (browser.selected + 1) (browser.visible.length - 1) ≤ browser.visible.length - 1
    omega

/-- No key takes the selection away from the entries that are shown. -/
theorem valid_press (h : browser.Valid) (key : Key) : (browser.press key).1.Valid := by
  cases key with
  | up => exact h.moveUp
  | down => exact h.moveDown
  | backspace => exact Nat.zero_le _
  | escape => exact h
  | enter => exact h
  | other => exact h
  | character c control =>
    rw [press]
    split
    · exact h
    · exact Nat.zero_le _

theorem entries_press (browser : Browser) (key : Key) : (browser.press key).1.entries = browser.entries := by
  cases key with
  | down =>
    simp only [press, moveDown]
    split <;> rfl
  | character c control =>
    rw [press]
    split <;> rfl
  | _ => rfl

/-- The browser after some keys. -/
def after (browser : Browser) (keys : List Key) : Browser :=
  keys.foldl (fun browser key => (browser.press key).1) browser

/-- Keys keep the selection valid and the list of entries as it is. -/
theorem valid_after (h : browser.Valid) (keys : List Key) :
    (browser.after keys).Valid ∧ (browser.after keys).entries = browser.entries := by
  induction keys generalizing browser with
  | nil => exact ⟨h, rfl⟩
  | cons key keys ih =>
    obtain ⟨hvalid, hentries⟩ := ih (valid_press h key)
    exact ⟨hvalid, hentries.trans (entries_press browser key)⟩

/-- The keys by which a browser is left. -/
theorem press_quits_iff (browser : Browser) (key : Key) :
    (browser.press key).2 = true ↔ key = .escape ∨ key = .character 'c' true := by
  cases key with
  | character c control =>
    rw [press]
    cases control <;> by_cases hc : c = 'c' <;> simp [hc]
  | _ => simp [press]

theorem press_of_quits {key : Key} (h : (browser.press key).2 = true) : (browser.press key).1 = browser := by
  rcases (press_quits_iff browser key).mp h with rfl | rfl
  · rfl
  · rfl

end Browser

/-- The selection of a browser is always valid. Whatever keys were pressed since the start, if an entry is
shown, the selected index is that of an entry that is shown, and the name or nickname of that entry contains
the filter, capital or small; if none is shown, the index is zero. What is shown are the entries that contain
the filter, in their order. A character that is typed makes the list of them no longer, and erasing it brings
the list back. The two keys by which a browser is left do not change it. -/
theorem browser_selection_is_always_valid (entries : List ReferenceEntry) (keys : List Key) :
    let browser := ({ entries } : Browser).after keys
    (browser.visible ≠ [] → browser.selected < browser.visible.length ∧
      ∃ entry, browser.current = some entry ∧ entry.Matches browser.filter) ∧
    (browser.visible = [] → browser.selected = 0) ∧
    browser.visible.Sublist entries ∧
    (∀ entry ∈ entries, entry ∈ browser.visible ↔ entry.Matches browser.filter) ∧
    (∀ c control, ¬ (c = 'c' ∧ control = true) →
      let typed := (browser.press (.character c control)).1
      typed.filter = browser.filter ++ [c] ∧ typed.visible.Sublist browser.visible ∧
        (typed.press .backspace).1.visible = browser.visible) ∧
    ∀ key, ((browser.press key).2 = true ↔ key = .escape ∨ key = .character 'c' true) ∧
      ((browser.press key).2 = true → (browser.press key).1 = browser) := by
  intro browser
  obtain ⟨hvalid, hentries⟩ := Browser.valid_after (Browser.valid_start entries) keys
  have hsame : browser.entries = entries := hentries
  refine ⟨fun hv => ⟨hvalid.lt_length hv, hvalid.current hv⟩, hvalid.eq_zero, hsame ▸ browser.visible_sublist,
    fun entry he => ?_, fun c control hquit => ?_, fun key => ⟨browser.press_quits_iff key, ?_⟩⟩
  · rw [Browser.mem_visible, hsame, and_iff_right he]
  · have htyped : (browser.press (.character c control)).1 = browser.type c := by
      rw [Browser.press, if_neg (by simpa [and_comm] using hquit)]
    rw [htyped]
    refine ⟨rfl, browser.visible_type c, ?_⟩
    show (browser.type c).erase.visible = browser.visible
    rw [Browser.erase_type]
    rfl
  · exact Browser.press_of_quits

/-- Two moves down and two letters, of which one is capital, select the only entry that is shown. One more
character leaves nothing to select until it is erased. -/
theorem browsing_for_fm :
    let found := ({ entries := CommandTable.general.entries } : Browser).after
      [.down, .down, .character 'F' false, .character 'm' false]
    let lost := found.after [.character 'c' false]
    found.visible.map (·.name) = ["FormatNumber"] ∧ found.selected < found.visible.length ∧
      (∃ entry, found.current = some entry ∧ entry.Matches "Fm".toList) ∧
      lost.visible = [] ∧ lost.selected = 0 ∧ (lost.press .backspace).1.visible = found.visible ∧
      (found.press (.character 'c' true)).1 = found := by
  intro found lost
  have hfound : found.visible.map (·.name) = ["FormatNumber"] := by decide +kernel
  have hlost : lost.visible = [] := by decide +kernel
  have hshown : found.visible ≠ [] := fun h => by
    rw [h] at hfound
    cases hfound
  obtain ⟨hselected, -, -, -, htyped, hquit⟩ :=
    browser_selection_is_always_valid CommandTable.general.entries
      [.down, .down, .character 'F' false, .character 'm' false]
  obtain ⟨-, hnone, -⟩ :=
    browser_selection_is_always_valid CommandTable.general.entries
      [.down, .down, .character 'F' false, .character 'm' false, .character 'c' false]
  exact ⟨hfound, (hselected hshown).1, (hselected hshown).2, hlost, hnone hlost,
    (htyped 'c' false (by decide)).2.2, (hquit (.character 'c' true)).2 rfl⟩

end ScriptEngine
