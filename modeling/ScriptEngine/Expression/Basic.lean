import ScriptEngine.Expression.Datum

/-!
# Expressions

The syntax tree of an expression: literals, locals, operators, calls, chains of methods and
properties, lists and records. Operators come in families that are evaluated alike, and a binary
operator has a precedence.
-/

namespace ScriptEngine

/-- An operator in front of its operand. -/
inductive UnaryOperator
  | minus
  | plus
  | not
  deriving DecidableEq, Repr

/-- The comparisons. -/
inductive Comparison
  | equal
  | unequal
  | less
  | lessOrEqual
  | greater
  | greaterOrEqual
  deriving DecidableEq, Repr

/-- The operators on numbers. -/
inductive Arithmetic
  | add
  | subtract
  | multiply
  | divide
  | modulo
  | power
  deriving DecidableEq, Repr

/-- The operators on the bits of integers and on truth values, both sides of which are evaluated. -/
inductive BitOperator
  | conjunction
  | disjunction
  | exclusive
  deriving DecidableEq, Repr

/-- The shifts of integers. -/
inductive Shift
  | left
  | right
  deriving DecidableEq, Repr

/-- An operator between its operands. -/
inductive BinaryOperator
  /-- True if one side is; the right side matters only if the left one is false. -/
  | either
  /-- True if both sides are; the right side matters only if the left one is true. -/
  | both
  | bits (operator : BitOperator)
  | comparison (operator : Comparison)
  /-- Whether the left side occurs in the right one. -/
  | within
  | arithmetic (operator : Arithmetic)
  | shift (operator : Shift)
  deriving DecidableEq, Repr

namespace BinaryOperator

/-- The precedence of an operator: one of a higher precedence takes its operands first. -/
def precedence : BinaryOperator → Nat
  | .either | .bits .disjunction | .bits .exclusive => 1
  | .both | .bits .conjunction => 2
  | .comparison .equal | .comparison .unequal => 3
  | .within => 4
  | .comparison _ => 5
  | .arithmetic .add | .arithmetic .subtract => 6
  | .arithmetic .multiply | .arithmetic .divide | .arithmetic .modulo => 7
  | .arithmetic .power => 8
  | .shift _ => 9

/-- Whether of several operators of one precedence the last one takes its operands first. -/
def groupsRight (operator : BinaryOperator) : Bool :=
  operator == .arithmetic .power

/-- Whether an operator takes the operand on its left away from an operator of the given
precedence in front of that. -/
def takesFrom (operator : BinaryOperator) (precedence : Nat) : Bool :=
  precedence < operator.precedence ||
    (precedence == operator.precedence && operator.groupsRight)

end BinaryOperator

mutual

/-- An expression. -/
inductive Expression
  | literal (datum : Datum)
  | named (name : String)
  | unary (operator : UnaryOperator) (operand : Expression)
  | binary (operator : BinaryOperator) (left right : Expression)
  | call (function : String) (arguments : List Expression)
  /-- A subject, and what is asked of it in turn. -/
  | chain (subject : Expression) (links : List Link)
  | array (items : List Expression)
  | record (keys : List String) (items : List Expression)

/-- What follows a point behind a subject. -/
inductive Link
  | property (name : String)
  | method (name : String) (arguments : List Expression)

end

namespace Expression

mutual

/-- The locals that an expression reads, also in parts that are never evaluated. -/
def names : Expression → List String
  | .literal _ => []
  | .named name => [name]
  | .unary _ operand => operand.names
  | .binary _ left right => left.names ++ right.names
  | .call _ arguments => namesOfAll arguments
  | .chain subject links => subject.names ++ namesOfLinks links
  | .array items => namesOfAll items
  | .record _ items => namesOfAll items

/-- The locals that expressions read. -/
def namesOfAll : List Expression → List String
  | [] => []
  | expression :: rest => expression.names ++ namesOfAll rest

/-- The locals that the links of a chain read. -/
def namesOfLinks : List Link → List String
  | [] => []
  | .property _ :: rest => namesOfLinks rest
  | .method _ arguments :: rest => namesOfAll arguments ++ namesOfLinks rest

end

/-- Whether an expression can be a side of `&&` and `||`: anything but a literal of another kind
than a truth value, a list and a record. -/
def canBeTruth : Expression → Bool
  | .literal (.truth _) => true
  | .literal _ | .array _ | .record _ _ => false
  | _ => true

end Expression

end ScriptEngine
