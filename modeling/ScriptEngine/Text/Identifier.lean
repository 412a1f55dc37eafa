/-!
# Identifiers

Names of scripts, parameters, locals and commands: an ASCII letter or underscore, then ASCII
letters, digits and underscores.
-/

namespace ScriptEngine.Text

/-- Whether an identifier can start with a character. -/
def isIdentifierStart (c : Char) : Bool :=
  c.isAlpha || c == '_'

/-- Whether a character can stand inside an identifier. -/
def isIdentifierRest (c : Char) : Bool :=
  c.isAlphanum || c == '_'

/-- Whether a text is an identifier. -/
def isIdentifier (s : String) : Bool :=
  match s.toList with
  | [] => false
  | c :: cs => isIdentifierStart c && cs.all isIdentifierRest

end ScriptEngine.Text
