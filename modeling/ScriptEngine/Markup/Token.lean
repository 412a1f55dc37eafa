import ScriptEngine.Markup.Character
import ScriptEngine.Span

/-!
# Markup tokens

A document is a sequence of tags, character data, comments and processing instructions.
`Token.read?` takes one of them from the front of a source text and keeps track of the place.
-/

namespace ScriptEngine.Markup

/-- What is left of a source text, and its place. -/
structure Cursor where
  rest : List Char
  place : Position
  deriving Repr

namespace Cursor

/-- Moves over characters, behind which `rest` is left. -/
def past (c : Cursor) (taken rest : List Char) : Cursor :=
  ⟨rest, taken.foldl Position.next c.place⟩

/-- The characters in front that satisfy a condition. -/
def takeWhile (p : Char → Bool) (c : Cursor) : List Char × Cursor :=
  let taken := c.rest.takeWhile p
  (taken, c.past taken (c.rest.dropWhile p))

/-- Moves over blanks. -/
def skipSpace (c : Cursor) : Cursor :=
  (c.takeWhile isSpace).2

/-- Moves over a given text. -/
def skip? (text : String) (c : Cursor) : Option Cursor :=
  if text.toList.isPrefixOf c.rest then some (c.past text.toList (c.rest.drop text.length))
  else none

/-- Whether a text lies ahead. -/
def startsWith (text : String) (c : Cursor) : Bool :=
  text.toList.isPrefixOf c.rest

end Cursor

/-- The characters before the first occurrence of a text, if it occurs. -/
def before? (text : List Char) : List Char → Option (List Char)
  | [] => if text.isEmpty then some [] else none
  | c :: cs => if text.isPrefixOf (c :: cs) then some [] else (before? text cs).map (c :: ·)

/-- The allowed characters up to a text, which is passed over. -/
def Cursor.until? (text : String) (c : Cursor) : Option (List Char × Cursor) := do
  let taken ← before? text.toList c.rest
  if taken.all isAllowed then
    return (taken, c.past (taken ++ text.toList) (c.rest.drop (taken.length + text.length)))
  else
    none

/-- A name with the qualifier in front of its colon, which may be missing. -/
structure QualifiedName where
  qualifier : String
  name : String
  deriving DecidableEq, Repr

/-- A part of a document. -/
inductive Token
  | text (chars : List Char)
  /-- Character data in which nothing has a meaning of its own. -/
  | data (chars : List Char)
  /-- A comment or processing instruction. -/
  | remark
  | opening (name : QualifiedName) (attributes : List (QualifiedName × List Char)) (closed : Bool)
  | closing (name : QualifiedName)
  deriving DecidableEq, Repr

namespace Token

/-- A name of the given characters: at most one colon, and behind it a name. -/
def qualifiedName? (chars : List Char) : Option QualifiedName :=
  let first := chars.takeWhile (· != ':')
  let starts (name : List Char) : Bool := name.head?.any isNameStart
  match chars.dropWhile (· != ':') with
  | [] => if starts first then some ⟨"", String.ofList first⟩ else none
  | _ :: second =>
    if (first.isEmpty || starts first) && starts second && !second.contains ':' then
      some ⟨String.ofList first, String.ofList second⟩
    else
      none

/-- The name ahead. -/
def name? (c : Cursor) : Option (QualifiedName × Cursor) := do
  let (chars, next) := c.takeWhile fun c => c == ':' || isNameRest c
  return (← qualifiedName? chars, next)

/-- The value of an attribute, from the equals sign to behind the closing quote. -/
def attributeValue? (c : Cursor) : Option (List Char × Cursor) := do
  let afterEquals := (← c.skipSpace.skip? "=").skipSpace
  let quote ← afterEquals.rest.head?.filter fun q => q == '"' || q == '\''
  let start ← afterEquals.skip? (String.singleton quote)
  let (value, stop) := start.takeWhile fun c => c != quote && c != '<'
  if value.all isAllowed then
    return (value, ← stop.skip? (String.singleton quote))
  else
    none

/-- The attributes of a tag up to its end, and whether the tag closes its element. An attribute
stands behind a blank. -/
def attributes? : Nat → Cursor → Option (List (QualifiedName × List Char) × Bool × Cursor)
  | 0, _ => none
  | fuel + 1, c => do
    let ahead := c.skipSpace
    if let some next := ahead.skip? "/>" then
      return ([], true, next)
    else if let some next := ahead.skip? ">" then
      return ([], false, next)
    else if c.rest.head?.any isSpace then
      let (name, afterName) ← name? ahead
      let (value, next) ← attributeValue? afterName
      let (others, closed, stop) ← attributes? fuel next
      return ((name, value) :: others, closed, stop)
    else
      none

/-- The comment ahead, which has no two hyphens inside and none at its end. -/
def comment? (c : Cursor) : Option Cursor := do
  let (body, stop) ← (← c.skip? "<!--").until? "-->"
  if (before? ['-', '-'] (body ++ ['-'])).isSome then none else return stop

/-- The processing instruction ahead, which must not look like a declaration. -/
def instruction? (c : Cursor) : Option Cursor := do
  if c.startsWith "<?xml " then
    none
  else
    let start ← c.skip? "<?"
    let (name, afterName) := start.takeWhile fun c => c == ':' || isNameRest c
    if name.head?.any fun c => c == ':' || isNameStart c then
      return (← afterName.skipSpace.until? "?>").2
    else
      none

/-- The opening tag ahead. -/
def opening? (c : Cursor) : Option (Token × Cursor) := do
  let (name, afterName) ← name? (← c.skip? "<")
  let (attributes, closed, stop) ← attributes? (afterName.rest.length + 1) afterName
  return (.opening name attributes closed, stop)

/-- The closing tag ahead. -/
def closing? (c : Cursor) : Option (Token × Cursor) := do
  let (name, afterName) ← name? (← c.skip? "</")
  return (.closing name, ← afterName.skipSpace.skip? ">")

/-- The text ahead, in which the end of character data must not occur. -/
def text? (c : Cursor) : Option (Token × Cursor) :=
  let (chars, stop) := c.takeWhile (· != '<')
  if chars.all isAllowed && (before? [']', ']', '>'] chars).isNone then some (.text chars, stop)
  else none

/-- Takes one token from the front. -/
def read? (c : Cursor) : Option (Token × Cursor) :=
  if c.startsWith "<!--" then (comment? c).map fun stop => (.remark, stop)
  else if c.startsWith "<![CDATA[" then do
    let (chars, stop) ← (← c.skip? "<![CDATA[").until? "]]>"
    return (.data chars, stop)
  else if c.startsWith "<?" then (instruction? c).map fun stop => (.remark, stop)
  else if c.startsWith "</" then closing? c
  else if c.startsWith "<" then opening? c
  else text? c

/-- All tokens of a source text with their spans. -/
def readAll? : Nat → Cursor → Option (List (Token × Span))
  | 0, _ => none
  | fuel + 1, c =>
    if c.rest.isEmpty then
      some []
    else do
      let (token, next) ← read? c
      let others ← readAll? fuel next
      return (token, ⟨c.place, next.place⟩) :: others

end Token

end ScriptEngine.Markup
