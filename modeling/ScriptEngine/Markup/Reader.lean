import ScriptEngine.Markup.Basic
import ScriptEngine.Markup.Token

/-!
# Reading markup

`Builder` puts tokens together to a tree: a stack of the elements that are open, and the root once
it is closed. Names are reduced to their part behind the colon after their qualifiers have been
looked up among the declared namespaces.
-/

namespace ScriptEngine.Markup

/-- Namespaces by qualifier, the empty one for the default. Of two entries for a qualifier the first
counts. -/
abbrev Namespaces := List (String × String)

/-- The namespace of the qualifier `xml`, which needs no declaration. -/
def xmlNamespace : String := "http://www.w3.org/XML/1998/namespace"

/-- The namespace of namespace declarations, which cannot be declared. -/
def declarationNamespace : String := "http://www.w3.org/2000/xmlns/"

/-- The qualifier that an attribute declares a namespace for. -/
def declares? (name : QualifiedName) : Option String :=
  if name.qualifier == "xmlns" then some name.name
  else if name.name == "xmlns" then some ""
  else none

/-- Whether a qualifier can be declared to stand for a namespace. -/
def isDeclarable (qualifier uri : String) : Bool :=
  uri != declarationNamespace && ((qualifier == "xml") == (uri == xmlNamespace))

/-- The namespaces that the attributes of a tag declare. A qualifier is declared once. -/
def declaredNamespaces? (attributes : List (QualifiedName × String)) : Option Namespaces :=
  let declared := attributes.filterMap fun (name, value) =>
    (declares? name).map fun qualifier => (qualifier, value)
  let qualifiers := (declared.map (·.1)).filter fun q => q != "" && q != "xml"
  if declared.all (fun (qualifier, uri) => isDeclarable qualifier uri) &&
      qualifiers.eraseDups == qualifiers
  then some (declared.filter fun (qualifier, _) => qualifier != "xml").reverse
  else none

/-- The namespace of an attribute: none without qualifier. -/
def attributeNamespace? (scope : Namespaces) (qualifier : String) : Option (Option String) :=
  if qualifier == "" then some none
  else if qualifier == "xml" then some (some xmlNamespace)
  else (scope.lookup qualifier).map some

/-- The attributes of a tag by their local names, of which no two are the same in one namespace. -/
def resolveAttributes? (scope : Namespaces) (attributes : List (QualifiedName × String)) :
    Option (Dictionary String) := do
  let proper := attributes.filter fun (name, _) => (declares? name).isNone
  let expanded ← proper.mapM fun (name, _) => do
    return (← attributeNamespace? scope name.qualifier, name.name)
  if expanded.eraseDups == expanded then
    return .ofList (proper.map fun (name, value) => (name.name, value))
  else
    none

/-- The value of an attribute with references and blanks resolved. -/
def attributeText? (chars : List Char) : Option String :=
  (letters? none chars).map fun letters => String.ofList (attributeBlanks letters)

/-- An element of which the closing tag has not been met. -/
structure OpenElement where
  name : QualifiedName
  attributes : Dictionary String
  scope : Namespaces
  start : Position
  /-- The children so far, the last one first. -/
  children : List Node
  /-- Whether more character data continues the last child. -/
  inText : Bool

/-- The elements that are open, the innermost first, and the root once it is closed. -/
structure Builder where
  stack : List OpenElement := []
  root : Option Element := none

namespace Builder

/-- Adds a child to the innermost open element; a closed element outside of all is the root. -/
def addElement (b : Builder) (e : Element) : Builder :=
  match b.stack with
  | [] => { b with root := some e }
  | top :: below =>
    let top := { top with children := .element e :: top.children, inText := false }
    { b with stack := top :: below }

/-- Adds character data, to the last child if that is character data next to it. -/
def addText? (b : Builder) (text : String) (span : Span) : Option Builder :=
  match b.stack with
  | [] => none
  | top :: below =>
    let children := match top.inText, top.children with
      | true, .text value first :: others => .text (value ++ text) first :: others
      | _, others => .text text span :: others
    some { b with stack := { top with children, inText := true } :: below }

/-- A remark ends character data. -/
def addRemark (b : Builder) : Builder :=
  match b.stack with
  | [] => b
  | top :: below => { b with stack := { top with inText := false } :: below }

/-- The element that an opening tag begins, with the namespaces in its scope. -/
def openElement? (b : Builder) (name : QualifiedName)
    (attributes : List (QualifiedName × List Char)) (start : Position) : Option OpenElement := do
  let written ← attributes.mapM fun (key, chars) => do return (key, ← attributeText? chars)
  let outer := (b.stack.head?.map (·.scope)).getD []
  let scope := (← declaredNamespaces? written) ++ outer
  if name.qualifier == "xmlns" || name.qualifier != "" && (scope.lookup name.qualifier).isNone then
    none
  else
    return ⟨name, ← resolveAttributes? scope written, scope, start, [], false⟩

/-- A finished element. -/
def close (e : OpenElement) (stop : Position) : Element :=
  .mk e.name.name e.attributes e.children.reverse ⟨e.start, stop⟩

/-- Takes the next token. -/
def add? (b : Builder) (token : Token) (span : Span) : Option Builder :=
  match token with
  | .remark => some b.addRemark
  | .text chars =>
    if b.stack.isEmpty then
      if chars.all isSpace then some b else none
    else do
      b.addText? (String.ofList (lineEnds false (← letters? none chars))) span
  | .data chars => b.addText? (String.ofList (lineEnds false (chars.map .plain))) span
  | .opening name attributes closed => do
    if b.stack.isEmpty && b.root.isSome then
      none
    else
      let e ← b.openElement? name attributes span.start
      if closed then
        return b.addElement (close e span.stop)
      else
        return { b with stack := e :: b.stack }
  | .closing name =>
    match b.stack with
    | [] => none
    | top :: below =>
      if top.name = name then some ({ b with stack := below }.addElement (close top span.stop))
      else none

end Builder

/-- Moves over an attribute of a declaration. -/
def declarationPart? (keyword : String) (c : Cursor) : Option Cursor := do
  if c.startsWith keyword then
    let (_, afterName) ← Token.name? c
    return (← Token.attributeValue? afterName).2
  else
    none

/-- Blanks between the parts of a declaration, which only its end can do without. -/
def declarationSpace? (c : Cursor) : Option Cursor :=
  if c.rest.head?.any isSpace || c.startsWith "?>" then some c.skipSpace else none

/-- Moves over the declaration at the very beginning of a document. -/
def declaration? (c : Cursor) : Option Cursor := do
  let start ← declarationSpace? (← c.skip? "<?xml")
  let version ← declarationSpace? (← declarationPart? "version" start)
  let encoding ←
    if version.startsWith "encoding" then declarationSpace? (← declarationPart? "encoding" version)
    else some version
  let standalone ←
    if encoding.startsWith "standalone" then declarationPart? "standalone" encoding
    else some encoding
  standalone.skipSpace.skip? "?>"

/-- The beginning of a source text behind a byte order mark and a declaration. -/
def prolog? (source : String) : Option Cursor := do
  let c : Cursor := ⟨source.toList, .first⟩
  let start := (c.skip? "\ufeff").getD c
  if start.startsWith "<?xml " then declaration? start else return start

/-- The root element of a document with all its character data. -/
def readTree? (source : String) : Option Element := do
  let start ← prolog? source
  let tokens ← Token.readAll? (start.rest.length + 1) start
  let built ← tokens.foldlM (fun (b : Builder) (token, span) => b.add? token span) {}
  if built.stack.isEmpty then built.root else none

/-- Reads a document: its root element without blank character data. -/
def parse (source : String) : Except Fault Element :=
  match readTree? source with
  | some root => .ok root.prune
  | none => .error ⟨.script .malformed, none⟩

end ScriptEngine.Markup
