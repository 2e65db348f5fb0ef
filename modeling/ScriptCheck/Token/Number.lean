/-!
Number literals.

A literal without a point is an integer as long as it is below 2^63; any other literal is a
floating-point number. Levels of jumps are positive numbers below 2^32.
-/

namespace ScriptCheck.Number

/-- The value of a sequence of decimal digits. -/
def ofDigits (cs : List Char) : Nat :=
  cs.foldl (fun n c => 10 * n + (c.toNat - '0'.toNat)) 0

/-- Whether a literal stands for an integer. -/
def isInteger (literal : List Char) : Bool :=
  !literal.contains '.' && ofDigits literal < Nat.pow 2 63

/-- Whether a literal stands for a number other than zero. A literal of at most 2^(-1075), half the
least positive floating-point number, is rounded to zero. -/
def isNonzero (literal : List Char) : Bool :=
  let (whole, rest) := literal.span (· != '.')
  let fraction := rest.drop 1
  Nat.pow 10 fraction.length < ofDigits (whole ++ fraction) * Nat.pow 2 1075

/-- The level that a literal stands for. -/
def level? (literal : List Char) : Option Nat :=
  let n := ofDigits literal
  if literal.contains '.' || n = 0 || Nat.pow 2 32 ≤ n then none else some n

end ScriptCheck.Number
