import ScriptCheck.Analysis.Decl.Class
import ScriptCheck.Analysis.Stmt.Compound

/-!
The reader of statements.

The kind of its first token decides what a statement is. A statement with a fault is reported and
passed over; it counts as completing. The readers of the parts call the reader of statements
again, after at least one token; `stmtWithin` bounds how often they are inside one another, and
`stmt` takes the number of tokens that are left as the bound.
-/

namespace ScriptCheck.Check

/-- Reads a statement that starts with an annotation: an annotated declaration, or variables. -/
def annotatedStatement (stmt : StmtReader) : Check Exits := do
  let next := (← cursor).kindAfterNote
  if next == .kwFunction then functionStatement stmt
  else if startsClass next then classStatement stmt
  else variableStatement

/-- Reads a statement by the kind of its first token. -/
def byKind (stmt : StmtReader) : Check Exits := do
  match ← kind with
  | .openCurly => block stmt
  | .kwIf => ifStatement stmt
  | .kwWhile => whileStatement stmt
  | .kwDo => doStatement stmt
  | .kwFor => forStatement stmt
  | .kwForeach => foreachStatement stmt
  | .kwSwitch => switchStatement stmt
  | .kwBreak => jump .breaking
  | .kwContinue => jump .continuing
  | .kwReturn => returnStatement
  | .kwThrow => throwStatement
  | .kwExit => exitStatement
  | .kwTry => tryStatement stmt
  | .kwEcho => echo
  | .semicolon => emptyStatement
  | .kwFunction => functionStatement stmt
  | .kwClass | .kwInterface | .kwAbstract | .kwFinal => classStatement stmt
  | .kwConst => constStatement
  | .openNote => annotatedStatement stmt
  | other => if other.startsOperand then exprStatement else reject

/-- Reads a statement whose parts are at most so deep. -/
def stmtWithin : Nat → StmtReader
  | 0 => throw .spent
  | n + 1 => recover .passing (byKind (stmtWithin n))

/-- Reads a statement. -/
def stmt : StmtReader := do
  stmtWithin (← bound)

end ScriptCheck.Check
