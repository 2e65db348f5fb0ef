import ScriptCheck.Analysis.Note
import ScriptCheck.Analysis.Expr.Reader
import ScriptCheck.Flow.Compose

/-!
Sequences of statements, and the statements without statements inside.

The readers of compound constructs take the reader of statements for what stands inside them.
-/

namespace ScriptCheck

/-- A reader of one statement, which gives its exits. -/
abbrev StmtReader := Check Exits

namespace Check

/-! ### Sequences -/

/-- Whether a declaration starts with a token of the kind, functions apart. -/
def startsClass (kind : Kind) : Bool :=
  kind == .kwClass || kind == .kwInterface || kind == .kwAbstract || kind == .kwFinal

/-- Whether a function or class declaration starts at the cursor. Declarations are known in
advance, so they are never unreachable. -/
def declarationAhead : Check Bool := do
  let c ← cursor
  let first := if c.kind == .openNote then c.kindAfterNote else c.kind
  return startsClass first || (first == .kwFunction && c.startsNamedFunction)

/-- Reports a statement that is never run, unless such reports are off. -/
def reportUnreachable (position : Position) : Check Unit := do
  if (← get).options.reportsUnreachable then
    report .unreachableCode position

/-- Reads statements up to a token of the given kinds or the end, and folds their exits. The
first statement that is never run is reported, once. -/
def statementsFrom (stmt : StmtReader) (ends : List Kind) :
    Nat → (exits : Exits) → (reported : Bool) → Check Exits
  | 0, _, _ => throw .spent
  | n + 1, exits, reported => do
      let here ← kind
      if here == .eof || ends.contains here then return exits
      else
        let start ← position
        let isDeclaration ← declarationAhead
        let next ← stmt
        if exits.completes then statementsFrom stmt ends n (exits.andThen next) reported
        else if isDeclaration || reported then statementsFrom stmt ends n exits reported
        else
          reportUnreachable start
          statementsFrom stmt ends n exits true

/-- Reads statements up to a token of the given kinds or the end. -/
def statements (stmt : StmtReader) (ends : List Kind) : Check Exits := do
  statementsFrom stmt ends (← bound) .passing false

/-- Reads a block in braces. -/
def block (stmt : StmtReader) : Check Exits := do
  let _ ← require .openCurly
  let exits ← statements stmt [.closeCurly]
  let _ ← require .closeCurly
  return exits

/-! ### Expressions in statements -/

/-- Reads a condition in parentheses. -/
def condition : Check Facts := do
  let _ ← require .openParen
  let facts ← expr .lowest
  let _ ← require .closeParen
  return facts

/-- Reads expressions separated by commas, up to a token of the given kind. -/
def exprsFrom (close : Kind) : Nat → Check (List Facts)
  | 0 => throw .spent
  | n + 1 => do
      if (← kind) == close then return []
      else
        let facts ← expr .comma
        if ← takes .comma then
          let rest ← exprsFrom close n
          return facts :: rest
        else return [facts]

/-- Reads expressions separated by commas, and the token after them. -/
def exprs (close : Kind) : Check (List Facts) := do
  let found ← exprsFrom close (← bound)
  let _ ← require close
  return found

/-- Reads an expression as a statement. -/
def exprStatement : Check Exits := do
  let facts ← expr .lowest
  let _ ← require .semicolon
  return Exits.passing.alsoRaising facts.raises

/-- Reads the output of some expressions. -/
def echo : Check Exits := do
  let _ ← require .kwEcho
  let shown ← exprs .semicolon
  return Exits.passing.alsoRaising (allRaises shown)

/-- Reads an empty statement. -/
def emptyStatement : Check Exits := do
  let _ ← require .semicolon
  return .passing

/-! ### Jumps -/

/-- Reads the level of a jump, one if there is none. -/
def jumpLevel (keyword : String) : Check Nat := do
  if (← kind) == .number then
    let token ← advance
    match Number.level? token.value.toList with
    | some level => return level
    | none =>
        fail (.misplacedToken token.value
          ("`" ++ keyword ++ "` takes a positive integer level")) (← positionOf token)
  else return 1

/-- Reads a jump out of loops and switches. One that leaves more than there are is reported, and
counts as leaving the outermost. -/
def jump (exits : Nat → Exits) : Check Exits := do
  let keyword ← advance
  let level ← jumpLevel keyword.value
  let _ ← require .semicolon
  let depth := (← get).loopDepth
  if depth < level then
    let shown := if level = 1 then keyword.value else keyword.value ++ " " ++ toString level
    report (.outsideLoop shown) (← positionOf keyword)
  return exits (min level (max depth 1))

/-- Checks what a routine returns, a value or nothing. Outside of routines anything goes. -/
def checkReturn (value : Option Facts) (position : Position) : Check Unit := do
  match (← get).routine with
  | none => return
  | some routine =>
      match routine.signature.resultType, value with
      | none, none => return
      | none, some _ => report (.valueFromVoid routine.name) position
      | some expected, none =>
          unless expected.isMixed do
            report (.missingReturnValue routine.name) position
      | some expected, some value => checkType expected value.type value.position

/-- Reads an expression up to a semicolon, if there is one. -/
def returnedValue? : Check (Option Facts) := do
  if (← kind) == .semicolon then return none
  else return some (← expr .lowest)

/-- Reads a return from a routine. -/
def returnStatement : Check Exits := do
  let keyword ← require .kwReturn
  let value ← returnedValue?
  let _ ← require .semicolon
  checkReturn value (← positionOf keyword)
  return Exits.stopping.alsoRaising (allRaises value.toList)

/-- The class of an exception that is raised. Something that cannot be one is reported. -/
def raisedClass? (exception : Facts) : Check (Option ClassId) := do
  match exception.type with
  | .mixed | .object => return none
  | .ofClass id _ =>
      let t ← classes
      let isThrowable := match t.idOf? "Throwable" with
        | some throwable => t.isSubclass id throwable
        | none => false
      if isThrowable then return some id
      else
        report (.notThrowable exception.type.display) exception.position
        return none
  | other =>
      report (.notThrowable other.display) exception.position
      return none

/-- Reads the raising of an exception. -/
def throwStatement : Check Exits := do
  let _ ← require .kwThrow
  let exception ← expr .lowest
  let _ ← require .semicolon
  let raised ← raisedClass? exception
  return Exits.stopping.alsoRaising (exception.raises ∪ NatSet.ofList raised.toList)

/-- Reads the end of the program. -/
def exitStatement : Check Exits := do
  let _ ← require .kwExit
  let args ← if ← takes .openParen then exprs .closeParen else pure []
  let _ ← require .semicolon
  return Exits.stopping.alsoRaising (allRaises args)

/-! ### Declarations of constants and variables -/

/-- Reads the constants that a file declares; gives what their values may raise. -/
def constantsFrom : Nat → Check NatSet
  | 0 => throw .spent
  | n + 1 => do
      let name ← require .name
      let _ ← require .assign
      let value ← expr .comma
      modifyEnv (·.addConstant name.value value.type)
      if ← takes .comma then
        let raises ← constantsFrom n
        return value.raises ∪ raises
      else return value.raises

/-- Reads a declaration of constants. -/
def constStatement : Check Exits := do
  let _ ← require .kwConst
  let raises ← constantsFrom (← bound)
  let _ ← require .semicolon
  return Exits.passing.alsoRaising raises

/-- Reads variables of an annotated type, with or without values; gives what the values may
raise. -/
def variablesFrom (type : Ty) : Nat → Check NatSet
  | 0 => throw .spent
  | n + 1 => do
      let name ← require .var
      setVariable name.value type true
      let raises ← if ← takes .assign then do
          let value ← expr .comma
          checkType type value.type value.position
          pure value.raises
        else pure ∅
      if ← takes .comma then
        let rest ← variablesFrom type n
        return raises ∪ rest
      else return raises

/-- Reads a declaration of variables by an annotation. -/
def variableStatement : Check Exits := do
  match ← note with
  | .type descriptor start =>
      let type ← noteType descriptor start
      let raises ← variablesFrom type (← bound)
      let _ ← require .semicolon
      return Exits.passing.alsoRaising raises
  | _ => fail (.invalidNote "expected a variable type") (← position)

end Check

end ScriptCheck
