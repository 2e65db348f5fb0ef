import ScriptCheck.Builtin
import ScriptCheck.Flow.Exits
import ScriptCheck.Ty.Accepts
import ScriptCheck.Options
import ScriptCheck.Report.Log
import ScriptCheck.Token.Cursor

/-!
The state of an analysis, and the steps that every part of it uses.

An analysis is a `Check`: a computation on a `State` that gives a result or breaks off. It breaks
off with a fault of the source; what was done to the state until then stays. Recursive parts take a
bound on their depth, computed from the number of tokens that are left, and break off with `spent`
if they ever reach it.
-/

namespace ScriptCheck

/-- A variable of the routine at hand. -/
structure Variable where
  type : Ty
  /-- Whether an annotation declared it, rather than its first assignment. -/
  isAnnotated : Bool
  deriving DecidableEq, Repr, Inhabited

/-- The routine whose body is being read. -/
structure Routine where
  name : String
  signature : Signature
  owner : Option ClassId := none
  isStatic : Bool := false
  deriving DecidableEq, Repr, Inhabited

/-- The state of an analysis. -/
structure State where
  cursor : Cursor
  options : Options := {}
  log : Log := {}
  types : TypeCache := {}
  env : Env := {}
  scope : List (String × Variable) := []
  routine : Option Routine := none
  inClass : Option ClassId := none
  /-- The number of loops and switches around the cursor. -/
  loopDepth : Nat := 0
  /-- The classes whose inheritance has been checked. -/
  checked : List ClassId := []
  deriving Inhabited

/-- The state at the start of a file. -/
def State.start (file : String) (tokens : List Token) (options : Options) : State :=
  let (env, types) := Builtin.env
  { cursor := { file := file, tokens := tokens.toArray }
    options := options
    log := { least := options.least }
    types := types
    env := env }

/-- Why a computation breaks off. -/
inductive Halt where
  | fault (fault : Fault)
  | spent
  deriving DecidableEq, Repr, Inhabited

/-- A computation of an analysis. -/
abbrev Check := EStateM Halt State

namespace Check

/-! ### The cursor -/

/-- The cursor. -/
def cursor : Check Cursor :=
  return (← get).cursor

/-- Puts the cursor at another place. -/
def setCursor (c : Cursor) : Check Unit :=
  modify fun s => { s with cursor := c }

/-- The token to be read next. -/
def current : Check Token :=
  return (← cursor).current

/-- The kind of the token to be read next. -/
def kind : Check Kind :=
  return (← cursor).kind

/-- The kind of the token some places ahead. -/
def kindAhead (n : Nat) : Check Kind :=
  return (← cursor).kindAhead n

/-- The position of the token to be read next. -/
def position : Check Position :=
  return (← cursor).position

/-- The position of a token of the file at hand. -/
def positionOf (token : Token) : Check Position :=
  return ⟨token.start, (← cursor).file⟩

/-- A bound for a loop or recursion that reads at least one token each time. -/
def bound : Check Nat :=
  return (← cursor).remaining + 1

/-- Reads one token. -/
def advance : Check Token := do
  let c ← cursor
  setCursor c.advance
  return c.current

/-- Breaks off with a fault. -/
def fail (cause : Cause) (position : Position) : Check α :=
  throw (.fault ⟨cause, position⟩)

/-- Breaks off because of the token to be read next. -/
def reject : Check α := do
  throw (.fault (← cursor).rejection)

/-- Breaks off because of a token that has been read. -/
def rejectToken (token : Token) : Check α := do
  fail (.unexpectedToken token.value) (← positionOf token)

/-- Reads one token of the given kind. -/
def require (kind : Kind) : Check Token := do
  let c ← cursor
  match c.pass? kind with
  | some next =>
      setCursor next
      return c.current
  | none => throw (.fault (c.missing kind))

/-- Reads one token if it is of the given kind; says whether it was. -/
def takes (kind : Kind) : Check Bool := do
  match (← cursor).pass? kind with
  | some next =>
      setCursor next
      return true
  | none => return false

/-- Passes over a block in braces. -/
def passBlock : Check Unit := do
  let (result, c) := (← cursor).passBlock
  setCursor c
  match result with
  | .ok () => return
  | .error fault => throw (.fault fault)

/-- Passes over the rest of a broken statement that started at the given place. -/
def resume (start : Nat) : Check Unit := do
  setCursor ((← cursor).resume start)

/-! ### Reports -/

/-- Reports a mistake. -/
def report (cause : Cause) (position : Position) : Check Unit :=
  modify fun s => { s with log := s.log.addFault ⟨cause, position⟩ }

/-- Runs a computation; if it breaks off with a fault, reports it, passes over the broken statement
and gives the fallback. -/
def recover (fallback : α) (body : Check α) : Check α := fun s =>
  match body s with
  | .error (.fault fault) s' =>
      (do report fault.cause fault.position
          resume s.cursor.index
          return fallback : Check α) s'
  | result => result

/-! ### Names -/

/-- The class table. -/
def classes : Check ClassTable :=
  return (← get).env.classes

/-- Changes what is known by name. -/
def modifyEnv (f : Env → Env) : Check Unit :=
  modify fun s => { s with env := f s.env }

/-- The name of a class. -/
def className (id : ClassId) : Check String :=
  return (← classes).nameOf id

/-- The class that a name written in code means; it may be the class at hand or its parent. -/
def classNamed? (name : String) : Check (Option ClassId) := do
  let s ← get
  if Text.sameIgnoringCase name "self" || Text.sameIgnoringCase name "static" then
    return s.inClass
  else if Text.sameIgnoringCase name "parent" then
    return (s.inClass.bind s.env.classes.get?).bind (·.superclass)
  else return s.env.classes.idOf? name

/-! ### Types -/

/-- Compiles a descriptor. -/
def compile (descriptor : String) : Check (Except DescriptorFault Ty) := do
  let s ← get
  let (result, types) := s.types.compile s.env.classes descriptor
  set { s with types := types }
  return result.map (·.type)

/-- The type of a descriptor, anything if it has none. -/
def typeOf (descriptor : String) : Check Ty := do
  match ← compile descriptor with
  | .ok type => return type
  | .error _ => return .mixed

/-- The type that admits anything. -/
def mixed : Check Ty :=
  typeOf "mixed"

/-- The descriptor with the name of the class at hand for `self`. -/
def spellSelf (s : State) (descriptor : String) : String :=
  let (base, tags) := splitTags descriptor.toList
  match s.inClass with
  | some id =>
      if Text.sameIgnoringCase (String.ofList base) "self" then
        s.env.classes.nameOf id ++ String.ofList tags
      else descriptor
  | none => descriptor

/-- The type of an annotation. A descriptor without a type is reported. -/
def noteType (descriptor : String) (position : Position) : Check Ty := do
  match ← compile (spellSelf (← get) descriptor) with
  | .ok type => return type
  | .error e =>
      report (.invalidNote e.message) position
      mixed

/-- The type of the instances of a class, by the class's name. -/
def instanceType (id : ClassId) : Check Ty := do
  typeOf (← className id)

/-- Whether something of one type may be stored where another is expected. -/
def accepts (target source : Ty) : Check Bool := do
  let s ← get
  return target.accepts s.env.classes s.options.strict source

/-- Reports something of one type where another is expected. -/
def checkType (expected received : Ty) (position : Position) : Check Unit := do
  unless ← accepts expected received do
    report (.typeMismatch expected.display received.display) position

/-! ### Variables and contexts -/

/-- The variable of a name. -/
def variableNamed? (name : String) : Check (Option Variable) :=
  return (← get).scope.lookup name

/-- Declares a variable, in place of one of the same name. -/
def setVariable (name : String) (type : Ty) (isAnnotated : Bool) : Check Unit :=
  modify fun s =>
    { s with scope := (name, ⟨type, isAnnotated⟩) :: s.scope.filter (·.1 != name) }

/-- Runs a computation on a changed state, and changes the state back afterwards, also if the
computation breaks off. -/
def within (enter : State → State) (leave : State → State → State) (body : Check α) : Check α :=
  fun s =>
    match body (enter s) with
    | .ok a s' => .ok a (leave s s')
    | .error e s' => .error e (leave s s')

/-- Runs a computation inside a routine: with its own variables and outside of any loop. -/
def inRoutine (routine : Routine) (body : Check α) : Check α :=
  within
    (fun s => { s with
      scope := []
      routine := some routine
      inClass := routine.owner
      loopDepth := 0 })
    (fun before s => { s with
      scope := before.scope
      routine := before.routine
      inClass := before.inClass
      loopDepth := before.loopDepth })
    body

/-- Runs a computation inside a class. -/
def inClass (id : ClassId) (body : Check α) : Check α :=
  within (fun s => { s with inClass := some id })
    (fun before s => { s with inClass := before.inClass }) body

/-- Runs a computation inside a loop or switch. -/
def inLoop (body : Check α) : Check α :=
  within (fun s => { s with loopDepth := s.loopDepth + 1 })
    (fun before s => { s with loopDepth := before.loopDepth }) body

end Check

end ScriptCheck
