import ScriptEngine.Command.Reference
import ScriptEngine.Text.Search

/-!
# Browsing the reference

A browser shows the entries whose name or alias contains what was typed, and one of them in detail.
Keys move the selection and change the filter.
-/

namespace ScriptEngine

/-- A key press. -/
inductive Key
  | up
  | down
  | backspace
  | escape
  | enter
  /-- A character, perhaps with the control key held down. -/
  | character (c : Char) (control : Bool)
  /-- Any key that has no name here. -/
  | other
  deriving DecidableEq, Repr

/-- A list of entries, what was typed, and the index of the selected one of the entries shown. -/
structure Browser where
  entries : List ReferenceEntry
  filter : List Char := []
  selected : Nat := 0
  deriving DecidableEq, Repr

/-- Whether a name or alias of an entry contains a text, not regarding the case of ASCII letters. -/
def ReferenceEntry.contains (entry : ReferenceEntry) (pattern : List Char) : Bool :=
  let occurs (name : String) : Bool :=
    Text.occursIn (pattern.map Char.toLower) (name.toList.map Char.toLower)
  occurs entry.name || entry.nickname.any occurs

/-- An entry in detail: its names, its description, the ways to call it, and its help. -/
def ReferenceEntry.details (entry : ReferenceEntry) : List String :=
  let nickname := entry.nickname.toList.map ("alias: " ++ ·)
  let help := Text.stripHtml entry.help
  let helpLines := if help.isEmpty then [] else ["", help]
  let usage := entry.usage.map ("  " ++ ·)
  [entry.name] ++ nickname ++ ["", entry.description, ""] ++ usage ++ helpLines

namespace Browser

/-- The entries that are shown. -/
def visible (browser : Browser) : List ReferenceEntry :=
  browser.entries.filter (·.contains browser.filter)

/-- The selected entry. -/
def current (browser : Browser) : Option ReferenceEntry :=
  browser.visible[browser.selected]?

/-- Selects the next entry, if there is one. -/
def moveDown (browser : Browser) : Browser :=
  let count := browser.visible.length
  if count = 0 then browser else { browser with selected := min (browser.selected + 1) (count - 1) }

/-- Selects the entry before, if there is one. -/
def moveUp (browser : Browser) : Browser :=
  { browser with selected := browser.selected - 1 }

/-- Shows the entries for one more character. -/
def type (browser : Browser) (c : Char) : Browser :=
  { browser with filter := browser.filter ++ [c], selected := 0 }

/-- Shows the entries without the last character. -/
def erase (browser : Browser) : Browser :=
  { browser with filter := browser.filter.dropLast, selected := 0 }

/-- The browser after a key press, and whether it is left. -/
def press (browser : Browser) : Key → Browser × Bool
  | .escape => (browser, true)
  | .up => (browser.moveUp, false)
  | .down => (browser.moveDown, false)
  | .backspace => (browser.erase, false)
  | .enter | .other => (browser, false)
  | .character c control =>
    if control && c == 'c' then (browser, true) else (browser.type c, false)

/-- The selected entry in detail. -/
def details (browser : Browser) : List String :=
  match browser.current with
  | some entry => entry.details
  | none => ["no matching command"]

end Browser

end ScriptEngine
