import ScriptCheck.Analysis.Expr.Operand
import ScriptCheck.Analysis.Expr.Operator

/-!
The reader of expressions.

An expression is an operand followed by operators, each of which binds tighter than the power the
expression is read with. The readers of the parts call the reader of expressions again, after at
least one token; `exprWithin` bounds how often they are inside one another, and `expr` takes the
number of tokens that are left as the bound.
-/

namespace ScriptCheck.Check

/-- Reads the operators that follow an operand and bind tighter than the power. -/
def operators (expr : ExprReader) (power : Power) : Nat → Facts → Check Facts
  | 0, _ => throw .spent
  | n + 1, left => do
      match (← kind).power? with
      | none => return left
      | some tighter =>
          if tighter.rank ≤ power.rank then return left
          else operators expr power n (← operator expr tighter left)

/-- Reads an expression whose parts are at most so deep. -/
def exprWithin : Nat → ExprReader
  | 0, _ => throw .spent
  | n + 1, power => do
      let left ← operand (exprWithin n)
      operators (exprWithin n) power (← bound) left

/-- Reads an expression whose operators bind tighter than the power. -/
def expr (power : Power) : Check Facts := do
  exprWithin (← bound) power

end ScriptCheck.Check
