import ScriptEngine.Text.Blank
import ScriptEngine.Text.Search

/-!
# Text in HTML

`escapeHtml` writes a text so that nothing in it is read as a tag or entity. `stripHtml` is the text
of a fragment: tags become blanks, the four entities are decoded, and blanks are collapsed.
-/

namespace ScriptEngine.Text

/-- A character that is special in HTML, and the name under which it is written. -/
structure Entity where
  char : Char
  name : List Char
  deriving DecidableEq, Repr

namespace Entity

def ampersand : Entity := ⟨'&', ['a', 'm', 'p']⟩

def less : Entity := ⟨'<', ['l', 't']⟩

def greater : Entity := ⟨'>', ['g', 't']⟩

def quote : Entity := ⟨'"', ['q', 'u', 'o', 't']⟩

/-- How an entity is written. -/
def text (e : Entity) : List Char :=
  '&' :: (e.name ++ [';'])

/-- A text with a character written as an entity. -/
def encode (cs : List Char) (e : Entity) : List Char :=
  replace [e.char] e.text cs

/-- A text with an entity replaced by its character. -/
def decode (cs : List Char) (e : Entity) : List Char :=
  replace e.text [e.char] cs

end Entity

/-- A text with its special characters written as entities. Ampersands come first, since the other
entities bring in new ones. -/
def escapeHtml (s : String) : String :=
  String.ofList ([.ampersand, .less, .greater, .quote].foldl Entity.encode s.toList)

/-- A text with its entities replaced by their characters. Ampersands come last, so that none of them
is taken for the start of an entity. -/
def decodeEntities (cs : List Char) : List Char :=
  [.less, .greater, .quote, .ampersand].foldl Entity.decode cs

/-- A text with a blank in place of each tag. A tag reaches from `<` to `>` or to the end. -/
def dropTags : Bool → List Char → List Char
  | _, [] => []
  | true, c :: rest => if c = '>' then ' ' :: dropTags false rest else dropTags true rest
  | false, c :: rest => if c = '<' then dropTags true rest else c :: dropTags false rest

/-- The words of a text, given the characters of the word being read, last one first. -/
def wordsFrom : List Char → List Char → List (List Char)
  | word, [] => if word.isEmpty then [] else [word.reverse]
  | word, c :: rest =>
    if isBlank c then
      if word.isEmpty then wordsFrom [] rest else word.reverse :: wordsFrom [] rest
    else
      wordsFrom (c :: word) rest

/-- A text with its words one blank apart and no blanks outside. -/
def collapse (cs : List Char) : List Char :=
  List.intercalate [' '] (wordsFrom [] cs)

/-- The text of an HTML fragment. -/
def stripHtml (s : String) : String :=
  String.ofList (collapse (decodeEntities (dropTags false s.toList)))

end ScriptEngine.Text
