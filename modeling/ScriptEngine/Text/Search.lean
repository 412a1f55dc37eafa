/-!
# Searching texts

Whether one text stands at the start, at the end or anywhere in another one, and `replace`, which puts
a third one in its place.
-/

namespace ScriptEngine.Text

/-- Whether characters stand one after the other anywhere in a list. -/
def occursIn (pattern : List Char) : List Char → Bool
  | [] => pattern.isEmpty
  | c :: cs => pattern.isPrefixOf (c :: cs) || occursIn pattern cs

/-- Whether a text contains another one. -/
def contains (text pattern : String) : Bool :=
  occursIn pattern.toList text.toList

/-- Whether a text starts with another one. -/
def startsWith (text pattern : String) : Bool :=
  pattern.toList.isPrefixOf text.toList

/-- Whether a text ends with another one. -/
def endsWith (text pattern : String) : Bool :=
  pattern.toList.isSuffixOf text.toList

/-- A text with a replacement for each occurrence of a pattern, found from the left. The first `skip`
characters belong to an occurrence that is replaced already. -/
def replaceFrom (pattern replacement : List Char) : Nat → List Char → List Char
  | _, [] => []
  | skip + 1, _ :: cs => replaceFrom pattern replacement skip cs
  | 0, c :: cs =>
    if pattern.isPrefixOf (c :: cs) then
      replacement ++ replaceFrom pattern replacement (pattern.length - 1) cs
    else
      c :: replaceFrom pattern replacement 0 cs

/-- A text with a replacement for each occurrence of a pattern, which is not empty. -/
def replace (pattern replacement cs : List Char) : List Char :=
  replaceFrom pattern replacement 0 cs

end ScriptEngine.Text
