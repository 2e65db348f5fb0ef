import ScriptCheck.Analysis.Expr.Call

/-!
Operators that follow an operand.

Each reader takes what is known of the operand on the left, with the cursor on the operator.
-/

namespace ScriptCheck.Check

/-! ### Assignment -/

/-- The type that a place must be given. A variable that is not declared has none; it is declared
with the type of what is assigned. -/
def targetType? (target : Place) (assigned : Ty) : Check (Option Ty) := do
  match target with
  | .typed type => return some type
  | .var name =>
      match ← variableNamed? name with
      | some v => return some v.type
      | none =>
          let type ← if assigned.isNull then mixed else pure assigned
          setVariable name type false
          return none

/-- Reads an assignment. An operator that also reads the place keeps its type unchecked. -/
def assignment (expr : ExprReader) (left : Facts) : Check Facts := do
  let operator ← advance
  let right ← expr .comma
  match left.target with
  | none =>
      fail (.misplacedToken operator.value "the left side cannot be assigned to")
        (← positionOf operator)
  | some target =>
      let expected? ← targetType? target right.type
      let isPlain := operator.kind == .assign
      if let some expected := expected? then
        if isPlain then checkType expected right.type left.position
      return {
        type := if isPlain then right.type else left.type
        position := left.position
        raises := left.raises ∪ right.raises }

/-! ### Conditionals and logic -/

/-- Reads the first branch of a conditional and the colon. Without a branch the condition takes its
place. -/
def firstBranch (expr : ExprReader) (condition : Facts) : Check Facts := do
  if ← takes .colon then return condition
  else
    let branch ← expr .assignment
    let _ ← require .colon
    return branch

/-- Reads a conditional. If the condition is known, only one branch counts. -/
def conditional (expr : ExprReader) (condition : Facts) : Check Facts := do
  let _ ← require .question
  let yes ← firstBranch expr condition
  let no ← expr .assignment
  let type ← match condition.truth with
    | some true => pure yes.type
    | some false => pure no.type
    | none => unify yes.type no.type
  let truth := condition.truth.bind fun holds => if holds then yes.truth else no.truth
  return {
    type := type
    position := condition.position
    truth := truth
    raises := condition.raises ∪ (yes.raises ∪ no.raises) }

/-- The truth of a conjunction. -/
def andTruth : Option Bool → Option Bool → Option Bool
  | some false, _ => some false
  | _, some false => some false
  | some true, some true => some true
  | _, _ => none

/-- The truth of a disjunction. -/
def orTruth : Option Bool → Option Bool → Option Bool
  | some true, _ => some true
  | _, some true => some true
  | some false, some false => some false
  | _, _ => none

/-- Reads a conjunction or disjunction. -/
def logical (expr : ExprReader) (power : Power) (left : Facts) : Check Facts := do
  let operator ← advance
  let right ← expr power
  let truth :=
    if operator.kind == .and then andTruth left.truth right.truth
    else orTruth left.truth right.truth
  return {
    type := ← typeOf "boolean"
    position := left.position
    truth := truth
    raises := left.raises ∪ right.raises }

/-- Reads a comparison. -/
def comparison (expr : ExprReader) (power : Power) (left : Facts) : Check Facts := do
  let _ ← advance
  let right ← expr power
  return {
    type := ← typeOf "boolean"
    position := left.position
    raises := left.raises ∪ right.raises }

/-! ### Arithmetic -/

/-- The type of the result of an arithmetic operator. -/
def arithmeticType (operator : Kind) (left right : Ty) : Check Ty :=
  match operator with
  | .dot => typeOf "string"
  | .percent => typeOf "int"
  | .slash => typeOf "float"
  | _ =>
      if left == .int && right == .int then typeOf "int"
      else if left.isNumeric && right.isNumeric then typeOf "float"
      else mixed

/-- Reads an arithmetic operation or a concatenation. -/
def arithmetic (expr : ExprReader) (power : Power) (left : Facts) : Check Facts := do
  let operator ← advance
  let right ← expr power
  return {
    type := ← arithmeticType operator.kind left.type right.type
    position := left.position
    raises := left.raises ∪ right.raises }

/-- Reads a step up or down after something that can be assigned to. -/
def step (left : Facts) : Check Facts := do
  let operator ← advance
  if left.target.isNone then rejectToken operator
  else return { type := left.type, position := left.position, raises := left.raises }

/-! ### Objects, calls and containers -/

/-- Reads the class of a test, by name or as an expression; gives what the expression may raise. -/
def testedClass (expr : ExprReader) : Check NatSet := do
  match ← kind with
  | .name | .kwStatic =>
      let token ← advance
      if (← classNamed? token.value).isNone then
        report (.unknownClass token.value) (← positionOf token)
      return ∅
  | _ => return (← expr .member).raises

/-- Reads a test of an object's class. -/
def instanceTest (expr : ExprReader) (left : Facts) : Check Facts := do
  let _ ← advance
  let raises ← testedClass expr
  return {
    type := ← typeOf "boolean"
    position := left.position
    raises := left.raises ∪ raises }

/-- Reads a call of the value of an expression. -/
def valueCall (expr : ExprReader) (left : Facts) : Check Facts := do
  let args ← arguments expr
  return {
    type := ← mixed
    position := left.position
    raises := left.raises ∪ allRaises args }

/-- Whether a key of the type cannot be a key of the kind. -/
def keyMismatch : Keys → Ty → Bool
  | .int, .string => true
  | .string, .int => true
  | _, _ => false

/-- The type of an element of a container or a character of a string. A key of the wrong type is
reported. -/
def elementType (left : Ty) (key : Option Facts) : Check Ty :=
  match left with
  | .container keys element => do
      if let some key := key then
        if keyMismatch keys key.type then
          report (.invalidKey keys.keyName key.type.display) key.position
      return element
  | .string => return .string
  | _ => mixed

/-- Reads the key of an index, which may be missing. -/
def indexKey? (expr : ExprReader) : Check (Option Facts) := do
  if (← kind) == .closeBracket then return none
  else return some (← expr .lowest)

/-- Reads an index in brackets; without a key it means a new element. -/
def indexed (expr : ExprReader) (left : Facts) : Check Facts := do
  let _ ← require .openBracket
  let key ← indexKey? expr
  let _ ← require .closeBracket
  let element ← elementType left.type key
  return {
    type := element
    position := left.position
    target := some (.typed element)
    raises := left.raises ∪ allRaises key.toList }

/-! ### Any operator -/

/-- Reads the operator at the cursor and what belongs to it. -/
def operator (expr : ExprReader) (power : Power) (left : Facts) : Check Facts := do
  match ← kind with
  | .assign | .plusEquals | .minusEquals | .starEquals | .slashEquals | .dotEquals =>
      assignment expr left
  | .question => conditional expr left
  | .and | .or => logical expr power left
  | .less | .lessEquals | .greater | .greaterEquals | .equals | .notEquals | .identical
  | .notIdentical => comparison expr power left
  | .plus | .dash | .dot | .star | .slash | .percent => arithmetic expr power left
  | .kwInstanceof => instanceTest expr left
  | .plusPlus | .minusMinus => step left
  | .openParen => valueCall expr left
  | .openBracket => indexed expr left
  | .arrow => memberAccess expr left
  | _ => reject

end ScriptCheck.Check
