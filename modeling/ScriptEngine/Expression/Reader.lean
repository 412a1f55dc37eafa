import ScriptEngine.Expression.Token

/-!
# Reading expressions

`Expression.parse?` reads a text that is exactly one expression. Operators group by precedence, and
nesting is limited: every parenthesis, sign, argument list, link of a chain and every operator in a
row goes one level deeper.
-/

namespace ScriptEngine.Expression

/-- How deep an expression may nest. -/
def deepestLevel : Nat := 64

/-- The next level, if there is one. -/
def deeper (level : Nat) : Option Nat :=
  if level < deepestLevel then some (level + 1) else none

/-- Words that name neither a local nor a function. -/
def reservedWords : List String :=
  ["as", "async", "await", "break", "case", "catch", "const", "continue", "default", "do", "else",
    "export", "fn", "for", "global", "go", "goto", "if", "import", "is", "let", "loop", "match",
    "module", "new", "nil", "null", "package", "private", "protected", "public", "return", "shared",
    "spawn", "static", "super", "switch", "sync", "this", "thread", "throw", "try", "until", "use",
    "var", "void", "while", "with", "yield"]

/-- Words that name a function and no local. -/
def functionWords : List String :=
  ["Fn", "debug", "eval", "is_def_fn", "is_def_var", "print"]

/-- Words that name a function or a method and no local. -/
def methodWords : List String :=
  ["call", "curry", "is_shared", "type_of"]

/-- Whether a word can name a local. -/
def isLocalName (word : String) : Bool :=
  !(reservedWords ++ functionWords ++ methodWords).contains word

/-- Whether a word can name a function. -/
def isFunctionName (word : String) : Bool :=
  !reservedWords.contains word

/-- Whether a word can stand behind a point. -/
def isLinkName (word : String) : Bool :=
  !(reservedWords ++ functionWords).contains word

/-- The operator that a sign is in front of an operand. -/
def Token.unary? : Token → Option UnaryOperator
  | .operator (.arithmetic .subtract) => some .minus
  | .operator (.arithmetic .add) => some .plus
  | .bang => some .not
  | _ => none

/-- An operator in front of an operand. A sign in front of a number makes another number. -/
def signed (operator : UnaryOperator) (operand : Expression) : Expression :=
  match operator, operand with
  | .minus, .literal (.integer n) =>
    if n == Int64.minValue then .literal (.float (-n.toFloat)) else .literal (.integer (-n))
  | .minus, .literal (.float x) => .literal (.float (-x))
  | .plus, .literal (.integer n) => .literal (.integer n)
  | .plus, .literal (.float x) => .literal (.float x)
  | _, _ => .unary operator operand

/-- An operator between two operands. Both sides of `&&` and `||` must be able to be true. -/
def joined? (operator : BinaryOperator) (left right : Expression) : Option Expression :=
  if (operator == .either || operator == .both) && !(left.canBeTruth && right.canBeTruth) then none
  else some (.binary operator left right)

mutual

/-- An expression in front, and the rest. -/
def readExpression : Nat → Nat → List Token → Option (Expression × List Token)
  | 0, _, _ => none
  | fuel + 1, level, tokens => do
    let level ← deeper level
    let (first, rest) ← readOperand fuel level tokens
    readOperations fuel level 0 first rest

/-- An operand with the signs in front of it. -/
def readOperand : Nat → Nat → List Token → Option (Expression × List Token)
  | 0, _, _ => none
  | _ + 1, _, [] => none
  | fuel + 1, level, token :: rest =>
    match token.unary? with
    | some operator => do
      let level ← deeper level
      let (operand, left) ← readOperand fuel level rest
      return (signed operator operand, left)
    | none => do
      let (subject, left) ← readPrimary fuel level (token :: rest)
      match ← readLinks fuel level left with
      | ([], left) => return (subject, left)
      | (links, left) => return (.chain subject links, left)

/-- A literal, a local, a call, a list, a record or an expression in parentheses. -/
def readPrimary : Nat → Nat → List Token → Option (Expression × List Token)
  | 0, _, _ => none
  | _ + 1, _, .literal datum :: rest => some (.literal datum, rest)
  | fuel + 1, level, .word name :: .leftParenthesis :: rest =>
    if isFunctionName name then do
      let level ← deeper level
      let (arguments, left) ← readItems fuel level .rightParenthesis rest
      return (.call name arguments, left)
    else
      none
  | _ + 1, _, .word name :: rest => if isLocalName name then some (.named name, rest) else none
  | _ + 1, _, .leftParenthesis :: .rightParenthesis :: rest => some (.literal .unit, rest)
  | fuel + 1, level, .leftParenthesis :: rest => do
    let level ← deeper level
    let (inner, left) ← readExpression fuel level rest
    match left with
    | .rightParenthesis :: left => return (inner, left)
    | _ => none
  | fuel + 1, level, .leftBracket :: rest => do
    let level ← deeper level
    let (items, left) ← readItems fuel level .rightBracket rest
    return (.array items, left)
  | fuel + 1, level, .recordStart :: rest => do
    let level ← deeper level
    let (entries, left) ← readEntries fuel level rest
    if (entries.map Prod.fst).Nodup then
      return (.record (entries.map Prod.fst) (entries.map Prod.snd), left)
    else
      none
  | _ + 1, _, _ => none

/-- The links that follow a subject, each one level deeper than the one before. -/
def readLinks : Nat → Nat → List Token → Option (List Link × List Token)
  | 0, _, _ => none
  | fuel + 1, level, .point :: .word name :: rest =>
    if isLinkName name then do
      let level ← deeper level
      let (link, left) ← match rest with
        | .leftParenthesis :: rest => do
          let inner ← deeper level
          let (arguments, left) ← readItems fuel inner .rightParenthesis rest
          pure (Link.method name arguments, left)
        | _ => pure (Link.property name, rest)
      let (links, left) ← readLinks fuel level left
      return (link :: links, left)
    else
      none
  | _ + 1, _, tokens => some ([], tokens)

/-- The operators that follow an operand and bind it more tightly than the given precedence. -/
def readOperations : Nat → Nat → Nat → Expression → List Token → Option (Expression × List Token)
  | 0, _, _, _, _ => none
  | fuel + 1, level, precedence, left, .operator operator :: rest =>
    if operator.takesFrom precedence then do
      let (operand, rest) ← readOperand fuel level rest
      let level ← deeper level
      let (right, rest) ← readOperations fuel level operator.precedence operand rest
      readOperations fuel level precedence (← joined? operator left right) rest
    else
      some (left, .operator operator :: rest)
  | _ + 1, _, _, left, tokens => some (left, tokens)

/-- Expressions between commas up to a closing token; a comma may stand behind the last one. -/
def readItems : Nat → Nat → Token → List Token → Option (List Expression × List Token)
  | 0, _, _, _ => none
  | fuel + 1, level, closing, tokens =>
    if tokens.head? = some closing then
      some ([], tokens.tail)
    else do
      let (item, rest) ← readExpression fuel level tokens
      match rest with
      | .comma :: rest =>
        let (items, left) ← readItems fuel level closing rest
        return (item :: items, left)
      | token :: rest => if token = closing then return ([item], rest) else none
      | [] => none

/-- The entries of a record up to the closing brace. -/
def readEntries : Nat → Nat → List Token → Option (List (String × Expression) × List Token)
  | 0, _, _ => none
  | _ + 1, _, .rightBrace :: rest => some ([], rest)
  | fuel + 1, level, key :: .colon :: rest => do
    let name ← match key with
      | .word name => if isLocalName name then some name else none
      | .literal (.text name) => some name
      | _ => none
    let (item, rest) ← readExpression fuel level rest
    match rest with
    | .comma :: rest =>
      let (entries, left) ← readEntries fuel level rest
      return ((name, item) :: entries, left)
    | .rightBrace :: rest => return ([(name, item)], rest)
    | _ => none
  | _ + 1, _, _ => none

end

/-- Reads a text that is one expression. Between two tokens that are read there are at most three
calls that read none. -/
def parse? (text : String) : Option Expression := do
  let tokens ← Token.scan? text
  match ← readExpression (4 * tokens.length + 4) 0 tokens with
  | (expression, []) => some expression
  | _ => none

end ScriptEngine.Expression
