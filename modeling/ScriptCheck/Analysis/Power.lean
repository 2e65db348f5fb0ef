import ScriptCheck.Token.Kind

/-!
How tightly operators bind.

An expression is read with a least power: operators that bind no tighter end it. The table of
operators gives every kind of token that can follow an operand its power, and `startsOperand` says
which kinds an operand can start with.
-/

namespace ScriptCheck

/-- The binding powers, the loosest first. -/
inductive Power where
  | lowest
  | comma
  | assignment
  | ternary
  | logical
  | relational
  | additive
  | multiplicative
  | unary
  | call
  | member
  | primary
  deriving DecidableEq, Repr, Inhabited

namespace Power

/-- The rank of a power: the tighter, the higher. -/
def rank : Power → Nat
  | lowest => 0
  | comma => 1
  | assignment => 2
  | ternary => 3
  | logical => 4
  | relational => 5
  | additive => 6
  | multiplicative => 7
  | unary => 8
  | call => 9
  | member => 10
  | primary => 11

/-- The name of a power. -/
def label : Power → String
  | lowest => "Default"
  | comma => "Comma"
  | assignment => "Assignment"
  | ternary => "Ternary"
  | logical => "Logical"
  | relational => "Relational"
  | additive => "Additive"
  | multiplicative => "Multiplicative"
  | unary => "Unary"
  | call => "Call"
  | member => "Member"
  | primary => "Primary"

/-- Every power, the loosest first. -/
def all : List Power :=
  [lowest, comma, assignment, ternary, logical, relational, additive, multiplicative, unary, call,
    member, primary]

end Power

/-- The power of the operator that a kind of token is after an operand. -/
def Kind.power? : Kind → Option Power
  | .assign | .plusEquals | .minusEquals | .starEquals | .slashEquals | .dotEquals =>
      some .assignment
  | .question => some .ternary
  | .and | .or => some .logical
  | .less | .lessEquals | .greater | .greaterEquals | .equals | .notEquals | .identical
  | .notIdentical => some .relational
  | .plus | .dash | .dot => some .additive
  | .star | .slash | .percent => some .multiplicative
  | .kwInstanceof | .plusPlus | .minusMinus | .openParen => some .call
  | .openBracket | .arrow => some .member
  | _ => none

/-- Whether an operand can start with a token of the kind. -/
def Kind.startsOperand : Kind → Bool
  | .number | .text | .kwTrue | .kwFalse | .kwNull | .var | .name | .kwStatic | .bang | .dash
  | .plus | .plusPlus | .minusMinus | .openParen | .openBracket | .kwArray | .kwNew => true
  | _ => false

end ScriptCheck
