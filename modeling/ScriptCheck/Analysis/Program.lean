import ScriptCheck.Analysis.Stmt.Reader

/-!
The analysis of a file.

A file is read three times. First every class name is entered, so that annotations can name classes
that are declared further down. Then functions and classes outside of braces are declared, without
their bodies. Last, the statements are read in order.
-/

namespace ScriptCheck

namespace Check

/-! ### Names of classes -/

/-- The classes that are named by some tokens: a name after `class` or `interface`, unless `::`
stands before. -/
def namedClasses (file : String) : (previous : Kind) → List Token → List ClassDef
  | _, [] => []
  | previous, s :: rest =>
      let later := namedClasses file s.kind rest
      match rest with
      | [] => later
      | next :: _ =>
          let isNamed := previous != .doubleColon && next.kind == .name
          let position : Position := ⟨next.start, file⟩
          match s.kind with
          | .kwClass => if isNamed then .stub next.value false position :: later else later
          | .kwInterface =>
              if isNamed then .stub next.value true position :: later else later
          | _ => later

/-- Enters every class that the file names. -/
def enterClasses : Check Unit := do
  let c ← cursor
  let defs := namedClasses c.file .eof c.tokens.toList
  modifyEnv fun env => defs.foldl (fun env decl => (env.addClass decl).2) env

/-! ### Declarations -/

/-- Reads the declaration at the cursor, if there is one; gives the class that it declared. -/
def declareHere : Check (Option ClassId) := do
  let c ← cursor
  let first := if c.kind == .openNote then c.kindAfterNote else c.kind
  if startsClass first then classAhead
  else if first == .kwFunction && c.startsNamedFunction then
    functionAhead
    return none
  else return none

/-- The number of open braces after a token. -/
def depthAfter (depth : Nat) (kind : Kind) : Nat :=
  match kind with
  | .openCurly => depth + 1
  | .closeCurly => depth - 1
  | _ => depth

/-- Declares the functions and classes outside of braces up to the end; gives the classes. -/
def declarationsFrom : Nat → (depth : Nat) → Check (List ClassId)
  | 0, _ => throw .spent
  | n + 1, depth => do
      if (← kind) == .eof then return []
      else
        let start := (← cursor).index
        let declared ← if depth = 0 then recover none declareHere else pure none
        if depth = 0 && (← cursor).index != start then
          let rest ← declarationsFrom n depth
          return declared.toList ++ rest
        else
          let token ← advance
          declarationsFrom n (depthAfter depth token.kind)

/-- Checks the inheritance of classes in turn. -/
def checkAllInheritance : List ClassId → Check Unit
  | [] => return
  | id :: ids => do
      checkInheritance id
      checkAllInheritance ids

/-- Puts the cursor on the first token. -/
def rewind : Check Unit := do
  setCursor ((← cursor).moveTo 0)

/-- Declares everything that a file declares outside of braces, and checks the classes. -/
def declarations : Check Unit := do
  rewind
  let declared ← declarationsFrom (← bound) 0
  checkAllInheritance declared

/-! ### The whole file -/

/-- Analyzes a file; gives the exits of its statements. -/
def program : Check Exits := do
  enterClasses
  declarations
  rewind
  statements stmt []

end Check

/-- The log of the analysis of a source. A source that has no tokens has only that fault. -/
def checkSource (source : String) (file : String) (options : Options) : Log :=
  match scan file source.toList with
  | .error fault => Log.addFault { least := options.least } fault
  | .ok tokens =>
      match Check.program (State.start file tokens options) with
      | .ok _ s => s.log
      | .error _ s => s.log

end ScriptCheck
