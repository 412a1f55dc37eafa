import ScriptEngine.Dictionary
import ScriptEngine.Fault
import ScriptEngine.Span
import ScriptEngine.Text.Blank

/-!
# Markup trees

An element has a name, attributes, and children: elements and stretches of character data. A tree
is first read with all its character data; `Element.prune` drops the blank stretches, which only
lay out the source.
-/

namespace ScriptEngine.Markup

mutual

/-- An element of a markup document. -/
inductive Element
  | mk (name : String) (attributes : Dictionary String) (children : List Node) (span : Span)

/-- A child of an element. -/
inductive Node
  | element (e : Element)
  | text (value : String) (span : Span)

end

deriving instance Repr for Element, Node

namespace Element

/-- The name of an element. -/
def name : Element → String
  | .mk name _ _ _ => name

/-- The attributes of an element. -/
def attributes : Element → Dictionary String
  | .mk _ attributes _ _ => attributes

/-- The children of an element. -/
def children : Element → List Node
  | .mk _ _ children _ => children

/-- The place of an element, from its opening to behind its closing bracket. -/
def span : Element → Span
  | .mk _ _ _ span => span

/-- The value of an attribute. -/
def get? (e : Element) (key : String) : Option String :=
  e.attributes.get? key

/-- A fault at the place of an element. -/
def fault (e : Element) (fault : ScriptFault) : Fault :=
  ⟨.script fault, some e.span⟩

/-- The value of an attribute without outer blanks, which must leave something. -/
def require (e : Element) (key : String) : Except Fault String :=
  match (e.get? key).map Text.trim with
  | some value =>
    if value.isEmpty then .error (e.fault (.missingAttribute e.name key)) else .ok value
  | none => .error (e.fault (.missingAttribute e.name key))

end Element

/-- The element that a child is. -/
def Node.element? : Node → Option Element
  | .element e => some e
  | .text .. => none

/-- The character data that a child is. -/
def Node.text? : Node → Option String
  | .text value _ => some value
  | .element _ => none

/-- The child elements. -/
def Element.elements (e : Element) : List Element :=
  e.children.filterMap Node.element?

/-- All character data directly inside an element, without outer blanks. -/
def Element.text (e : Element) : String :=
  Text.trim (String.join (e.children.filterMap Node.text?))

/-- Whether a child is character data that holds only blanks. -/
def Node.isBlank : Node → Bool
  | .text value _ => Text.isBlankText value
  | .element _ => false

mutual

/-- A tree without its blank character data. -/
def Element.prune : Element → Element
  | .mk name attributes children span => .mk name attributes (Node.pruneAll children) span

/-- A child without the blank character data inside it. -/
def Node.prune : Node → Node
  | .element e => .element e.prune
  | .text value span => .text value span

/-- Children without blank character data among them or inside them. -/
def Node.pruneAll : List Node → List Node
  | [] => []
  | node :: rest =>
    if node.isBlank then Node.pruneAll rest else node.prune :: Node.pruneAll rest

end

end ScriptEngine.Markup
