import ScriptCheck.Proofs.Recovery.Braces

/-!
Outlines of programs, and readers that give them.

An outline keeps of a statement where it starts, what it declares, how it is left, and its parts:
the tokens that belong to it alone, the lists of statements in it, single statements in it, and the
bodies of loops with the truth of their conditions. All of a program can be printed from its
outline, and the outline says which of its code is never run (`Outline.Part.NeverRuns`).

The readers of the analysis give no outlines. Those in `Outliner` do what the readers of the same
names do, and collect the parts besides. A part of a reader that reads no statement is taken over as
it is, with the tokens that it takes (`Outliner.noted`).
-/

namespace ScriptCheck

/-- The report of code that is never run. -/
def Diagnostic.unreachableAt (position : Position) : Diagnostic :=
  .ofFault ⟨.unreachableCode, position⟩

/-! ### Outlines -/

/-- What a statement declares, if it is a declaration that other code may come before. -/
inductive Outline.Form where
  | function (byReference : Bool)
  | classLike
  | other
  deriving DecidableEq, Repr

mutual

/-- A statement: where it starts, what it declares, how it is left, and its parts. -/
inductive Outline where
  | mk (start : Position) (form : Outline.Form) (exits : Exits) (parts : List Outline.Part)

/-- A part of a statement. -/
inductive Outline.Part where
  | symbols (tokens : List Token)
  | list (items : List Outline)
  | body (item : Outline)
  | loop (truth : Option Bool) (item : Outline)

end

namespace Outline

/-- Where the statement starts. -/
def start : Outline → Position
  | .mk start _ _ _ => start

/-- What it declares. -/
def form : Outline → Form
  | .mk _ form _ _ => form

/-- How it is left. -/
def exits : Outline → Exits
  | .mk _ _ exits _ => exits

/-- Whether the place of such a statement does not matter. That is so of classes, and of functions
unless they return a reference. -/
def Form.isHoisted : Form → Bool
  | .function byReference => !byReference
  | .classLike => true
  | .other => false

mutual

/-- The parts of a statement and of the statements in it. -/
def all : Outline → List Part
  | .mk _ _ _ parts => allIn parts

/-- Some parts, and the parts of the statements in them. -/
def allIn : List Part → List Part
  | [] => []
  | part :: parts => part.all ++ allIn parts

/-- A part, and the parts of the statements in it. -/
def Part.all : Part → List Part
  | .symbols tokens => [.symbols tokens]
  | .list items => .list items :: allOf items
  | .body item => .body item :: item.all
  | .loop truth item => .loop truth item :: item.all

/-- The parts of some statements and of the statements in them. -/
def allOf : List Outline → List Part
  | [] => []
  | item :: items => item.all ++ allOf items

end

/-- The tokens that belong to no statement inside the part. -/
def Part.tokens : Part → List Token
  | .symbols tokens => tokens
  | _ => []

/-- The tokens of parts in order. -/
def printed (parts : List Part) : List Token :=
  parts.flatMap Part.tokens

/-! ### Code that is never run -/

/-- How statements that are run in turn are left. -/
def folded (items : List Outline) : Exits :=
  (items.map exits).foldl Exits.andThen .passing

/-- The statement is never run after the given ones, and its place matters. -/
def isUnreached (before : List Outline) (item : Outline) : Bool :=
  !(folded before).completes && !item.form.isHoisted

/-- The statement is the first one in a list that is never run and whose place matters. -/
def IsFirstUnreached (items : List Outline) (item : Outline) : Prop :=
  ∃ before after, items = before ++ item :: after ∧ isUnreached before item = true ∧
    ∀ before' item' after', items = before' ++ item' :: after' → before'.length < before.length →
      isUnreached before' item' = false

/-- The code at the position is never run, and it is the first such code in the list, or the body of
the loop. -/
def Part.NeverRuns : Part → Position → Prop
  | .list items, position => ∃ item, IsFirstUnreached items item ∧ position = item.start
  | .loop truth item, position => truth = some false ∧ position = item.start
  | .symbols _, _ => False
  | .body _, _ => False

/-- The report is about code in the parts that is never run. -/
def Reports (parts : List Part) (d : Diagnostic) : Prop :=
  ∃ part ∈ parts, ∃ position, part.NeverRuns position ∧ d = .unreachableAt position

end Outline

/-- What the statement at the cursor declares, with or without an annotation before it. -/
def Cursor.form (c : Cursor) : Outline.Form :=
  let ahead := if c.kind == .openNote then c.afterNote else c.rest
  let first := firstKind ahead
  let second := firstKind (ahead.drop 1)
  if Check.startsClass first then .classLike
  else if first == .kwFunction && second == .name then .function false
  else if first == .kwFunction && second == .ampersand then .function true
  else .other

/-! ### Readers of outlines -/

/-- Something that was read, and the parts of what was read. -/
structure Outlined (α : Type) where
  value : α
  parts : List Outline.Part

/-- A reader that collects parts. -/
structure Outliner (α : Type) where
  run : Check (Outlined α)

namespace Outliner

open Check

variable {α : Type}

instance : Monad Outliner where
  pure a := ⟨pure ⟨a, []⟩⟩
  bind o p := ⟨do
    let first ← o.run
    let second ← (p first.value).run
    return ⟨second.value, first.parts ++ second.parts⟩⟩

/-- What the reader does, without the parts. -/
def reading (o : Outliner α) : Check α :=
  Outlined.value <$> o.run

/-- Collects the tokens that a reader takes. -/
def noted (m : Check α) : Outliner α := ⟨do
  let before ← cursor
  let value ← m
  let after ← cursor
  return ⟨value, [.symbols (before.taken after)]⟩⟩

instance : MonadLift Check Outliner := ⟨noted⟩

/-- Reads inside a loop or switch. -/
def inLoop (o : Outliner α) : Outliner α :=
  ⟨Check.inLoop o.run⟩

/-- Reads inside a routine. -/
def inRoutine (routine : Routine) (o : Outliner α) : Outliner α :=
  ⟨Check.inRoutine routine o.run⟩

/-- Reads inside a class. -/
def inClass (id : ClassId) (o : Outliner α) : Outliner α :=
  ⟨Check.inClass id o.run⟩

/-- Reports a fault and passes over what is broken. -/
def recover (fallback : α) (o : Outliner α) : Outliner α :=
  ⟨Check.recover ⟨fallback, []⟩ o.run⟩

/-! ### Sequences -/

/-- Puts a statement before others. -/
def withItem (item : Outline) (found : Exits × List Outline) : Exits × List Outline :=
  (found.1, item :: found.2)

/-- Reads statements up to a token of the given kinds or the end, and folds their exits. -/
def itemsFrom (stmt : Check Outline) (ends : List Kind) :
    Nat → (exits : Exits) → (reported : Bool) → Check (Exits × List Outline)
  | 0, _, _ => throw .spent
  | n + 1, exits, reported => do
      let here ← kind
      if here == .eof || ends.contains here then return (exits, [])
      else
        let start ← position
        let isDeclaration ← declarationAhead
        let next ← stmt
        if exits.completes then
          withItem next <$> itemsFrom stmt ends n (exits.andThen next.exits) reported
        else if isDeclaration || reported then
          withItem next <$> itemsFrom stmt ends n exits reported
        else
          reportUnreachable start
          withItem next <$> itemsFrom stmt ends n exits true

/-- Reads statements up to a token of the given kinds or the end. -/
def statements (stmt : Check Outline) (ends : List Kind) : Outliner Exits := ⟨do
  let found ← itemsFrom stmt ends (← bound) .passing false
  return ⟨found.1, [.list found.2]⟩⟩

/-- Reads a single statement. -/
def bodyOf (stmt : Check Outline) : Outliner Exits := ⟨do
  let item ← stmt
  return ⟨item.exits, [.body item]⟩⟩

/-- Reads a block in braces. -/
def block (stmt : Check Outline) : Outliner Exits := do
  let _ ← require .openCurly
  let exits ← statements stmt [.closeCurly]
  let _ ← require .closeCurly
  return exits

/-! ### Conditionals and loops -/

/-- Reads conditions with their branches, as long as another condition follows. -/
def branchesFrom (stmt : Check Outline) : Nat → Branches → Outliner Branches
  | 0, _ => noted (throw .spent)
  | n + 1, found => do
      let facts ← condition
      let body ← bodyOf stmt
      let found := found.add facts body
      if ← takes .kwElseIf then branchesFrom stmt n found
      else return found

/-- Reads a conditional statement. -/
def ifStatement (stmt : Check Outline) : Outliner Exits := do
  let _ ← require .kwIf
  let found ← branchesFrom stmt (← bound) {}
  let last ← if ← takes .kwElse then bodyOf stmt else pure .passing
  let found := found.addLast last
  return (Exits.oneOf found.taken).alsoRaising found.raises

/-- Reads the body of a loop that tests its condition first. -/
def loopBody (stmt : Check Outline) (truth : Option Bool) : Outliner Exits := ⟨do
  let start ← position
  let item ← Check.inLoop stmt
  let exits ← loopExits item.exits truth start
  return ⟨exits, [.loop truth item]⟩⟩

/-- Reads a loop with a condition. -/
def whileStatement (stmt : Check Outline) : Outliner Exits := do
  let _ ← require .kwWhile
  let facts ← condition
  let exits ← loopBody stmt facts.truth
  return exits.alsoRaising facts.raises

/-- Reads a loop with its condition at the end. -/
def doStatement (stmt : Check Outline) : Outliner Exits := do
  let _ ← require .kwDo
  let body ← inLoop (bodyOf stmt)
  let _ ← require .kwWhile
  let facts ← condition
  let _ ← require .semicolon
  return (body.doWhile facts.truth).alsoRaising facts.raises

/-- Reads a counting loop. -/
def forStatement (stmt : Check Outline) : Outliner Exits := do
  let _ ← require .kwFor
  let _ ← require .openParen
  let first ← exprs .semicolon
  let conditions ← exprs .semicolon
  let steps ← exprs .closeParen
  let truth := match conditions.getLast? with
    | some facts => facts.truth
    | none => some true
  let exits ← loopBody stmt truth
  let stepRaises := if truth == some false then ∅ else allRaises steps
  return exits.alsoRaising (allRaises first ∪ (allRaises conditions ∪ stepRaises))

/-- Reads a loop over the elements of a value. -/
def foreachStatement (stmt : Check Outline) : Outliner Exits := do
  let _ ← require .kwForeach
  let _ ← require .openParen
  let subject ← expr .lowest
  let _ ← require .kwAs
  let types ← iterationTypes subject.type
  loopVariables types.1 types.2
  let _ ← require .closeParen
  let body ← inLoop (bodyOf stmt)
  return (body.loop none).alsoRaising subject.raises

/-! ### Switches and exceptions -/

/-- Reads the groups of a switch up to its closing brace. -/
def groupsFrom (stmt : Check Outline) : Nat → Groups → Outliner Groups
  | 0, _ => noted (throw .spent)
  | n + 1, found => do
      if (← kind) == .closeCurly then return found
      else
        let found ← label found
        unless ← takes .semicolon do
          let _ ← require .colon
        let exits ← statements stmt [.kwCase, .kwDefault, .closeCurly]
        groupsFrom stmt n { found with bodies := found.bodies ++ [exits] }

/-- Reads a switch. -/
def switchStatement (stmt : Check Outline) : Outliner Exits := do
  let _ ← require .kwSwitch
  let subject ← condition
  let _ ← require .openCurly
  let found ← inLoop do groupsFrom stmt (← bound) {}
  let _ ← require .closeCurly
  return (Exits.switch found.bodies found.hasDefault).alsoRaising
    (subject.raises ∪ found.raises)

/-- Reads a clause that catches exceptions. -/
def catchClause (stmt : Check Outline) : Outliner Handler := do
  let _ ← require .kwCatch
  let _ ← require .openParen
  let types ← caughtTypes (← bound) {}
  let name ← require .var
  let _ ← require .closeParen
  setVariable name.value (← caughtType types) false
  let body ← block stmt
  return ⟨types.known, body⟩

/-- Reads clauses as long as there are any. -/
def catchClauses (stmt : Check Outline) : Nat → Outliner (List Handler)
  | 0 => noted (throw .spent)
  | n + 1 => do
      if (← kind) == .kwCatch then
        let clause ← catchClause stmt
        let rest ← catchClauses stmt n
        return clause :: rest
      else return []

/-- Reads a final block, if there is one. -/
def finalBlock? (stmt : Check Outline) : Outliner (Option Exits) := do
  if ← takes .kwFinally then return some (← block stmt)
  else return none

/-- Reads a block with clauses or a final block, or both. -/
def tryStatement (stmt : Check Outline) : Outliner Exits := do
  let keyword ← require .kwTry
  let body ← block stmt
  let clauses ← catchClauses stmt (← bound)
  let last ← finalBlock? stmt
  if clauses.isEmpty && last.isNone then
    fail (.misplacedToken keyword.value "expected catch or finally")
      (← positionOf keyword)
  return Exits.guarded (← classes) body clauses last

/-! ### Functions and classes -/

/-- Reads the body of a routine with its parameters as variables, and checks how it ends. -/
def routineBody (stmt : Check Outline) (h : RoutineHeader) (owner : Option ClassId)
    (isStatic : Bool) : Outliner Unit := do
  let routine : Routine := {
    name := h.name
    signature := h.signature
    owner := owner
    isStatic := isStatic }
  let exits ← inRoutine routine do
    setParams h.signature.isVariadic h.signature.params
    block stmt
  checkExit h exits

/-- Reads a function in its place. -/
def functionStatement (stmt : Check Outline) : Outliner Exits := do
  let leading ← note?
  let h ← header leading
  enterFunction h
  routineBody stmt h none false
  return .passing

/-- Reads the body of a method. -/
def methodBody (stmt : Check Outline) (h : OpenClass) (method : RoutineHeader)
    (isStatic : Bool) : Outliner Unit := do
  let name := (← className h.id) ++ "::" ++ method.name
  routineBody stmt { method with name := name } (some h.id) isStatic

/-- Reads a method. -/
def classMethod (stmt : Check Outline) (h : OpenClass) (marks : MemberMarks) : Outliner Unit := do
  let found ← header marks.note
  let isAbstract := marks.isAbstract || (← classDef h.id).isInterface
  let method : Method := {
    name := found.name
    visibility := marks.visibility
    owner := h.id
    position := found.position
    isAbstract := isAbstract
    isStatic := marks.isStatic
    isFinal := marks.isFinal
    signature := found.signature }
  addMember h (fun decl => (decl.declaredMethod? found.name).isSome) found.name found.position
    fun decl => { decl with methods := decl.methods ++ [method] }
  unless ← takes .semicolon do
    if isAbstract then
      fail (.misplacedToken (← current).value "abstract methods have no body") (← position)
    methodBody stmt h found marks.isStatic

/-- Reads one member. -/
def classMember (stmt : Check Outline) (h : OpenClass) : Outliner Unit := do
  let marks ← memberMarksFrom (← bound) {}
  match ← kind with
  | .kwConst => classConstants h marks
  | .kwFunction => classMethod stmt h marks
  | .var | .name | .kwArray => classProperties h marks
  | _ => noted reject

/-- Reads members up to the closing brace or the end; a broken one is reported and passed over. -/
def membersFrom (stmt : Check Outline) (h : OpenClass) : Nat → Outliner Unit
  | 0 => noted (throw .spent)
  | n + 1 => do
      let here ← kind
      unless here == .closeCurly || here == .eof do
        recover () (classMember stmt h)
        membersFrom stmt h n

/-- Reads the members of a class in braces. -/
def classBody (stmt : Check Outline) (h : OpenClass) : Outliner Unit := do
  let _ ← require .openCurly
  membersFrom stmt h (← bound)
  let _ ← require .closeCurly

/-- Reads a class with the bodies of its methods. -/
def classDeclaration (stmt : Check Outline) : Outliner OpenClass := do
  let leading ← note?
  let h ← classHeader leading
  inClass h.id (classBody stmt h)
  return h

/-- Reads a class in its place. -/
def classStatement (stmt : Check Outline) : Outliner Exits := do
  let h ← classDeclaration stmt
  checkInheritance h.id
  return .passing

/-! ### Statements -/

/-- Reads a statement that starts with an annotation: an annotated declaration, or variables. -/
def annotatedStatement (stmt : Check Outline) : Outliner Exits := do
  let next := (← cursor).kindAfterNote
  if next == .kwFunction then functionStatement stmt
  else if startsClass next then classStatement stmt
  else variableStatement

/-- Reads a statement by the kind of its first token. -/
def byKind (stmt : Check Outline) : Outliner Exits := do
  match ← kind with
  | .openCurly => block stmt
  | .kwIf => ifStatement stmt
  | .kwWhile => whileStatement stmt
  | .kwDo => doStatement stmt
  | .kwFor => forStatement stmt
  | .kwForeach => foreachStatement stmt
  | .kwSwitch => switchStatement stmt
  | .kwBreak => jump .breaking
  | .kwContinue => jump .continuing
  | .kwReturn => returnStatement
  | .kwThrow => throwStatement
  | .kwExit => exitStatement
  | .kwTry => tryStatement stmt
  | .kwEcho => echo
  | .semicolon => emptyStatement
  | .kwFunction => functionStatement stmt
  | .kwClass | .kwInterface | .kwAbstract | .kwFinal => classStatement stmt
  | .kwConst => constStatement
  | .openNote => annotatedStatement stmt
  | other => if other.startsOperand then exprStatement else noted reject

/-- Reads a statement whose parts are at most so deep. -/
def stmtWithin : Nat → Check Outline
  | 0 => throw .spent
  | n + 1 => do
      let c ← cursor
      let found ← (recover .passing (byKind (stmtWithin n))).run
      return .mk c.position c.form found.value found.parts

/-- Reads a statement. -/
def stmt : Check Outline := do
  stmtWithin (← bound)

/-- Analyzes a file; gives the exits and the outline of its statements. -/
def program : Outliner Exits := ⟨do
  enterClasses
  declarations
  rewind
  (statements stmt []).run⟩

end Outliner

end ScriptCheck
