import ScriptCheck.Analysis.Stmt.Basic

/-!
Compound statements: conditionals, loops, switches and the catching of exceptions.
-/

namespace ScriptCheck.Check

/-! ### Conditionals -/

/-- The branches of a conditional that may be taken, what its conditions may raise, and whether one
of them is known to hold, so that later branches are never taken. -/
structure Branches where
  taken : List Exits := []
  raises : NatSet := ∅
  isDecided : Bool := false

/-- Adds a branch under a condition. A branch is left out if its condition is known not to hold or
an earlier one is known to. -/
def Branches.add (b : Branches) (condition : Facts) (body : Exits) : Branches :=
  let raises := b.raises ∪ condition.raises
  if b.isDecided || condition.truth == some false then { b with raises := raises }
  else ⟨b.taken ++ [body], raises, condition.truth == some true⟩

/-- Adds the branch that is taken if no condition holds. -/
def Branches.addLast (b : Branches) (body : Exits) : Branches :=
  if b.isDecided then b else { b with taken := b.taken ++ [body] }

/-- Reads conditions with their branches, as long as another condition follows. -/
def branchesFrom (stmt : StmtReader) : Nat → Branches → Check Branches
  | 0, _ => throw .spent
  | n + 1, found => do
      let facts ← condition
      let body ← stmt
      let found := found.add facts body
      if ← takes .kwElseIf then branchesFrom stmt n found
      else return found

/-- Reads a conditional statement. -/
def ifStatement (stmt : StmtReader) : Check Exits := do
  let _ ← require .kwIf
  let found ← branchesFrom stmt (← bound) {}
  let last ← if ← takes .kwElse then stmt else pure .passing
  let found := found.addLast last
  return (Exits.oneOf found.taken).alsoRaising found.raises

/-! ### Loops -/

/-- The exits of a loop that tests its condition first. A body that is never run is reported and
does not count. -/
def loopExits (body : Exits) (truth : Option Bool) (bodyStart : Position) :
    Check Exits := do
  if truth == some false then
    reportUnreachable bodyStart
    return .passing
  else return body.loop truth

/-- Reads a loop with a condition. -/
def whileStatement (stmt : StmtReader) : Check Exits := do
  let _ ← require .kwWhile
  let facts ← condition
  let start ← position
  let body ← inLoop stmt
  return (← loopExits body facts.truth start).alsoRaising facts.raises

/-- Reads a loop with its condition at the end. -/
def doStatement (stmt : StmtReader) : Check Exits := do
  let _ ← require .kwDo
  let body ← inLoop stmt
  let _ ← require .kwWhile
  let facts ← condition
  let _ ← require .semicolon
  return (body.doWhile facts.truth).alsoRaising facts.raises

/-- Reads a counting loop. The last condition decides; without a condition the loop does not
end. What its steps may raise only counts if the body is run. -/
def forStatement (stmt : StmtReader) : Check Exits := do
  let _ ← require .kwFor
  let _ ← require .openParen
  let first ← exprs .semicolon
  let conditions ← exprs .semicolon
  let steps ← exprs .closeParen
  let truth := match conditions.getLast? with
    | some facts => facts.truth
    | none => some true
  let start ← position
  let body ← inLoop stmt
  let exits ← loopExits body truth start
  let stepRaises := if truth == some false then ∅ else allRaises steps
  return exits.alsoRaising (allRaises first ∪ (allRaises conditions ∪ stepRaises))

/-- The types of the keys and elements that a loop over a value goes through. -/
def iterationTypes (subject : Ty) : Check (Ty × Ty) := do
  match subject with
  | .container key element =>
      let descriptor := match key with
        | .int => "int"
        | .string => "string"
        | .either => "mixed"
      return (← typeOf descriptor, element)
  | _ => return (← mixed, ← mixed)

/-- Declares a variable of a loop, unless it is there already. -/
def setLoopVariable (name : String) (type : Ty) : Check Unit := do
  if (← variableNamed? name).isNone then
    setVariable name type false

/-- Reads the variables of a loop over a value: one for the elements, or one for the keys and one
for the elements. -/
def loopVariables (keyType elementType : Ty) : Check Unit := do
  let _ ← takes .ampersand
  let first ← require .var
  if ← takes .doubleArrow then
    let _ ← takes .ampersand
    let second ← require .var
    setLoopVariable first.value keyType
    setLoopVariable second.value elementType
  else setLoopVariable first.value elementType

/-- Reads a loop over the elements of a value. -/
def foreachStatement (stmt : StmtReader) : Check Exits := do
  let _ ← require .kwForeach
  let _ ← require .openParen
  let subject ← expr .lowest
  let _ ← require .kwAs
  let (keyType, elementType) ← iterationTypes subject.type
  loopVariables keyType elementType
  let _ ← require .closeParen
  let body ← inLoop stmt
  return (body.loop none).alsoRaising subject.raises

/-! ### Switches -/

/-- The groups of a switch, what its labels may raise, and whether it has a default. -/
structure Groups where
  bodies : List Exits := []
  raises : NatSet := ∅
  hasDefault : Bool := false

/-- Reads a label: the value of a case, or the default. -/
def label (found : Groups) : Check Groups := do
  match ← kind with
  | .kwCase =>
      let _ ← advance
      let facts ← expr .lowest
      return { found with raises := found.raises ∪ facts.raises }
  | .kwDefault =>
      let _ ← advance
      return { found with hasDefault := true }
  | _ => reject

/-- Reads the groups of a switch up to its closing brace. -/
def groupsFrom (stmt : StmtReader) : Nat → Groups → Check Groups
  | 0, _ => throw .spent
  | n + 1, found => do
      if (← kind) == .closeCurly then return found
      else
        let found ← label found
        unless ← takes .semicolon do
          let _ ← require .colon
        let exits ← statements stmt [.kwCase, .kwDefault, .closeCurly]
        groupsFrom stmt n { found with bodies := found.bodies ++ [exits] }

/-- Reads a switch. -/
def switchStatement (stmt : StmtReader) : Check Exits := do
  let _ ← require .kwSwitch
  let subject ← condition
  let _ ← require .openCurly
  let found ← inLoop do groupsFrom stmt (← bound) {}
  let _ ← require .closeCurly
  return (Exits.switch found.bodies found.hasDefault).alsoRaising
    (subject.raises ∪ found.raises)

/-! ### Exceptions -/

/-- The classes that a clause names: those that are known, and how many there are in all. -/
structure CaughtTypes where
  known : List ClassId := []
  named : Nat := 0

/-- Reads the classes that a clause names. Unknown ones are reported. -/
def caughtTypes : Nat → CaughtTypes → Check CaughtTypes
  | 0, _ => throw .spent
  | n + 1, found => do
      let name ← require .name
      let found ← match ← classNamed? name.value with
        | some id => pure ⟨found.known ++ [id], found.named + 1⟩
        | none => do
            report (.unknownClass name.value) (← positionOf name)
            pure { found with named := found.named + 1 }
      if ← takes .pipe then caughtTypes n found
      else return found

/-- The type of the exception that a clause catches; it is only known if the clause names one
class. -/
def caughtType (types : CaughtTypes) : Check Ty :=
  match types.known with
  | [id] => if types.named = 1 then instanceType id else mixed
  | _ => mixed

/-- Reads a clause that catches exceptions. -/
def catchClause (stmt : StmtReader) : Check Handler := do
  let _ ← require .kwCatch
  let _ ← require .openParen
  let types ← caughtTypes (← bound) {}
  let name ← require .var
  let _ ← require .closeParen
  setVariable name.value (← caughtType types) false
  let body ← block stmt
  return ⟨types.known, body⟩

/-- Reads clauses as long as there are any. -/
def catchClauses (stmt : StmtReader) : Nat → Check (List Handler)
  | 0 => throw .spent
  | n + 1 => do
      if (← kind) == .kwCatch then
        let clause ← catchClause stmt
        let rest ← catchClauses stmt n
        return clause :: rest
      else return []

/-- Reads a final block, if there is one. -/
def finalBlock? (stmt : StmtReader) : Check (Option Exits) := do
  if ← takes .kwFinally then return some (← block stmt)
  else return none

/-- Reads a block with clauses or a final block, or both. -/
def tryStatement (stmt : StmtReader) : Check Exits := do
  let keyword ← require .kwTry
  let body ← block stmt
  let clauses ← catchClauses stmt (← bound)
  let last ← finalBlock? stmt
  if clauses.isEmpty && last.isNone then
    fail (.misplacedToken keyword.value "expected catch or finally")
      (← positionOf keyword)
  return Exits.guarded (← classes) body clauses last

end ScriptCheck.Check
