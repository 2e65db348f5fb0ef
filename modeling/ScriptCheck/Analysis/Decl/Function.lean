import ScriptCheck.Analysis.Stmt.Basic

/-!
Functions: their headers and bodies.

A header is read twice: once ahead of everything else, so that calls can come before declarations,
and once in its place, where the body is read too.
-/

namespace ScriptCheck

/-- The header of a function or method. -/
structure RoutineHeader where
  name : String
  position : Position
  signature : Signature
  deriving DecidableEq, Repr

namespace Check

/-! ### Parameters -/

/-- Reads the type of a parameter, as an annotation or a descriptor, if there is one. -/
def paramType? : Check (Option Ty) := do
  match ← kind with
  | .openNote =>
      match ← note with
      | .type text start => return some (← noteType text start)
      | _ => fail (.invalidNote "expected a parameter type") (← position)
  | .name | .kwArray =>
      let start ← position
      let text ← descriptor
      return some (← noteType text start)
  | _ => return none

/-- Reads three dots, if they are there. -/
def ellipsis : Check Bool := do
  if (← kind) == .dot && (← kindAhead 1) == .dot && (← kindAhead 2) == .dot then
    let _ ← advance
    let _ ← advance
    let _ ← advance
    return true
  else return false

/-- The type of something declared with a value. A declared type must accept the value; without
one the value's type is taken, unless the value is null. -/
def declaredType? (declared : Option Ty) (value : Facts) : Check (Option Ty) := do
  match declared with
  | some type =>
      checkType type value.type value.position
      return some type
  | none => return if value.type.isNull then none else some value.type

/-- The given type, or else the one that admits anything. -/
def typeOrMixed (type : Option Ty) : Check Ty :=
  match type with
  | some type => return type
  | none => mixed

/-- Reads one parameter; says whether it takes all further arguments. -/
def parameter : Check (Parameter × Bool) := do
  let declared ← paramType?
  let byReference ← takes .ampersand
  let isVariadic ← ellipsis
  let name ← require .var
  let hasValue ← takes .assign
  let type ← if hasValue then declaredType? declared (← expr .comma) else pure declared
  let param : Parameter := {
    name := name.value
    type := ← typeOrMixed type
    isOptional := isVariadic || hasValue
    byReference := byReference }
  return (param, isVariadic)

/-- Reads parameters up to the closing parenthesis; says whether the last one takes all further
arguments. Nothing may follow such a one. -/
def paramsFrom : Nat → List Parameter → (isVariadic : Bool) → Check (List Parameter × Bool)
  | 0, _, _ => throw .spent
  | n + 1, params, isVariadic => do
      let token ← current
      if token.kind == .closeParen then return (params, isVariadic)
      else if isVariadic then
        fail (.misplacedToken token.value "the variadic parameter must be the last one")
          (← positionOf token)
      else
        let (param, isVariadic) ← parameter
        if ← takes .comma then paramsFrom n (params ++ [param]) isVariadic
        else return (params ++ [param], isVariadic)

/-- Reads a parameter list in parentheses. -/
def params : Check (List Parameter × Bool) := do
  let _ ← require .openParen
  let found ← paramsFrom (← bound) [] false
  let _ ← require .closeParen
  return found

/-! ### Headers -/

/-- The classes of a list of exceptions. Unknown ones are reported. -/
def knownClasses : List NameAt → Check (List ClassId)
  | [] => return []
  | name :: names => do
      let found ← classNamed? name.name
      if found.isNone then
        report (.unknownClass name.name) name.position
      let rest ← knownClasses names
      return found.toList ++ rest

/-- Reads the result type after a colon, as an annotation, if there is one. -/
def resultNote? : Check (Option Note) := do
  if ← takes .colon then
    let start ← position
    let text ← descriptor
    return some (if Text.sameIgnoringCase text "void" then .void else .type text start)
  else return none

/-- Reads annotations as long as there are any. -/
def notesFrom : Nat → Check (List Note)
  | 0 => throw .spent
  | n + 1 => do
      if (← kind) == .openNote then
        let first ← note
        let rest ← notesFrom n
        return first :: rest
      else return []

/-- What annotations say of a routine: its result, where the inner nothing means void, and its
exceptions. -/
structure Contract where
  result : Option (Option Ty) := none
  throws : List ClassId := []

/-- Takes annotations into a contract in turn. The last result counts. -/
def applyNotes (namePosition : Position) : Contract → List Note → Check Contract
  | contract, [] => return contract
  | contract, a :: rest => do
      let contract ← match a with
        | .type text start => do
            let type ← noteType text start
            pure { contract with result := some (some type) }
        | .void => pure { contract with result := some none }
        | .throws names => do
            let classes ← knownClasses names
            pure { contract with throws := contract.throws ++ classes }
        | .unchecked => do
            report (.invalidNote "`unchecked` only applies to classes") namePosition
            pure contract
      applyNotes namePosition contract rest

/-- Reads the header of a function or method; `leading` is the annotation before it. A routine
without a result type may return anything. -/
def header (leading : Option Note) : Check RoutineHeader := do
  let _ ← require .kwFunction
  let _ ← takes .ampersand
  let name ← require .name
  let namePosition ← positionOf name
  let (params, isVariadic) ← params
  let result ← resultNote?
  let trailing ← notesFrom (← bound)
  let contract ← applyNotes namePosition {} (leading.toList ++ result.toList ++ trailing)
  let resultType ← match contract.result with
    | some type => pure type
    | none => some <$> mixed
  return {
    name := name.value
    position := namePosition
    signature := {
      params := params
      resultType := resultType
      throws := contract.throws
      isVariadic := isVariadic } }

/-- Declares a function, unless this very declaration has been read before. -/
def enterFunction (h : RoutineHeader) : Check Unit := do
  match (← get).env.function? h.name with
  | some known =>
      unless known.position == h.position do
        report (.repeatedFunction h.name) h.position
  | none => modifyEnv (·.addFunction ⟨h.name, h.signature, h.position⟩)

/-! ### Bodies -/

/-- Reports exceptions that a routine does not declare. -/
def reportUndeclared (h : RoutineHeader) : List ClassId → Check Unit
  | [] => return
  | id :: ids => do
      report (.undeclaredException (← className id) h.name) h.position
      reportUndeclared h ids

/-- Checks how a body leaves its routine: a routine with a result must not end without one, and
must declare the exceptions that escape. -/
def checkExit (h : RoutineHeader) (exits : Exits) : Check Unit := do
  if let some type := h.signature.resultType then
    if exits.completes && !type.isMixed then
      report (.missingReturn h.name) h.position
  if (← get).options.reportsThrows then
    reportUndeclared h (undeclared (← classes) exits.raises h.signature.throws).elems

/-- The type that a parameter has in the body. One that takes all further arguments is a
container. -/
def bodyType (param : Parameter) (isVariadic : Bool) : Check Ty :=
  if isVariadic then typeOf (String.ofList (insertTag param.type.chars Keys.int.tag.toList))
  else return param.type

/-- Declares parameters as variables; the last one may take all further arguments. -/
def setParams (isVariadic : Bool) : List Parameter → Check Unit
  | [] => return
  | param :: rest => do
      setVariable param.name (← bodyType param (isVariadic && rest.isEmpty)) true
      setParams isVariadic rest

/-- Reads the body of a routine with its parameters as variables, and checks how it ends. -/
def routineBody (stmt : StmtReader) (h : RoutineHeader) (owner : Option ClassId) (isStatic : Bool) :
    Check Unit := do
  let routine : Routine := {
    name := h.name
    signature := h.signature
    owner := owner
    isStatic := isStatic }
  let exits ← inRoutine routine do
    setParams h.signature.isVariadic h.signature.params
    block stmt
  checkExit h exits

/-- Reads the header of a function ahead of its place, and passes over the body. -/
def functionAhead : Check Unit := do
  let leading ← note?
  let h ← header leading
  enterFunction h
  passBlock

/-- Reads a function in its place. -/
def functionStatement (stmt : StmtReader) : Check Exits := do
  let leading ← note?
  let h ← header leading
  enterFunction h
  routineBody stmt h none false
  return .passing

end Check

end ScriptCheck
