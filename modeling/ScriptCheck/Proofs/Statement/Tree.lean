import Mathlib.Tactic
import ScriptCheck.Analysis.State
import ScriptCheck.Flow.Compose

/-!
Trees of statements.

A `Statement` is a statement without declarations whose conditions are the two truth values and
variables, and whose compound statements have blocks as bodies. Three functions go over the trees:

* `Statement.symbols`: the symbols that a statement is written with;
* `Statement.exits`: its exits, folded from those of its parts;
* `Statement.WellFormed`: whether it may stand in a given setting, that is, its variables are
  declared, its jumps stay inside the loops and switches around them and its clauses catch classes
  that are known.

A clause declares its variable for all that follows it, so the last function goes over the parts in
the order in which they are written and takes the variables along (`Statement.binds`).
-/

namespace ScriptCheck

/-! ### Symbols -/

/-- A token apart from its place in the source. -/
structure Symbol where
  kind : Kind
  value : String
  deriving DecidableEq, Repr

/-- The symbol of a token. -/
def Token.symbol (token : Token) : Symbol := ⟨token.kind, token.value⟩

/-- The symbols from the cursor on. -/
def Cursor.symbols (c : Cursor) : List Symbol := c.rest.map Token.symbol

/-- The symbol of a reserved word or an operator. -/
def Symbol.fixed (kind : Kind) : Symbol :=
  ⟨kind, (((Kind.reservedWords ++ Kind.operators).find? (·.2 == kind)).map (·.1)).getD ""⟩

/-- Symbols in braces. -/
def inBraces (symbols : List Symbol) : List Symbol :=
  .fixed .openCurly :: (symbols ++ [.fixed .closeCurly])

/-! ### Settings -/

/-- The class that a name written in code means. -/
def State.classNamed? (s : State) (name : String) : Option ClassId :=
  if Text.sameIgnoringCase name "self" || Text.sameIgnoringCase name "static" then s.inClass
  else if Text.sameIgnoringCase name "parent" then
    (s.inClass.bind s.env.classes.get?).bind (·.superclass)
  else s.env.classes.idOf? name

/-- What a statement refers to: the classes, the classes by name, the variables that are declared,
and the number of loops and switches around it. -/
structure Setting where
  classes : ClassTable
  classNamed? : String → Option ClassId
  declared : List String
  depth : Nat

namespace Setting

/-- The setting of a state. -/
def ofState (s : State) : Setting where
  classes := s.env.classes
  classNamed? := s.classNamed?
  declared := s.scope.map (·.1)
  depth := s.loopDepth

/-- The setting with more variables. -/
def declaring (Γ : Setting) (names : List String) : Setting :=
  { Γ with declared := Γ.declared ++ names }

/-- The setting inside one more loop or switch. -/
def inside (Γ : Setting) : Setting := { Γ with depth := Γ.depth + 1 }

@[simp] lemma declaring_nil (Γ : Setting) : Γ.declaring [] = Γ := by
  rw [declaring, List.append_nil]

lemma declaring_append (Γ : Setting) (xs ys : List String) :
    Γ.declaring (xs ++ ys) = (Γ.declaring xs).declaring ys := by
  simp only [declaring, List.append_assoc]

end Setting

/-! ### Parts without statements -/

/-- A condition: a truth value or a variable. -/
inductive Condition where
  | holds
  | fails
  | var (name : String)
  deriving DecidableEq, Repr

namespace Condition

def symbol : Condition → Symbol
  | holds => .fixed .kwTrue
  | fails => .fixed .kwFalse
  | var name => ⟨.var, name⟩

/-- The condition as it stands after a keyword. -/
def inParens (c : Condition) : List Symbol :=
  [.fixed .openParen, c.symbol, .fixed .closeParen]

/-- The value of the condition, if it is known. -/
def truth : Condition → Option Bool
  | holds => some true
  | fails => some false
  | var _ => none

/-- The variable of the condition is declared. -/
def IsDeclared (Γ : Setting) : Condition → Prop
  | holds => True
  | fails => True
  | var name => name ∈ Γ.declared

end Condition

/-- A literal. -/
inductive Literal where
  | number (digits : String)
  | text (content : String)
  | boolean (value : Bool)
  | null
  deriving DecidableEq, Repr

def Literal.symbol : Literal → Symbol
  | number digits => ⟨.number, digits⟩
  | text content => ⟨.text, content⟩
  | boolean true => .fixed .kwTrue
  | boolean false => .fixed .kwFalse
  | null => .fixed .kwNull

/-- What stands before a group of a switch. -/
inductive Label where
  | case (value : Literal)
  | otherwise
  deriving DecidableEq, Repr

namespace Label

def symbols : Label → List Symbol
  | case value => [.fixed .kwCase, value.symbol]
  | otherwise => [.fixed .kwDefault]

def isDefault : Label → Bool
  | case _ => false
  | otherwise => true

end Label

/-- The two ways to jump out of loops and switches. -/
inductive Jump where
  | breaks
  | continues
  deriving DecidableEq, Repr

namespace Jump

def kind : Jump → Kind
  | breaks => .kwBreak
  | continues => .kwContinue

def exits : Jump → Nat → Exits
  | breaks => .breaking
  | continues => .continuing

/-- The symbols of a level, which may be missing. -/
def levelSymbols : Option Nat → List Symbol
  | none => []
  | some level => [⟨.number, toString level⟩]

end Jump

/-- The head of a clause: the classes that it catches, at least one, and its variable. -/
structure ClauseHead where
  name : String
  others : List String
  var : String
  deriving DecidableEq, Repr

namespace ClauseHead

def names (head : ClauseHead) : List String := head.name :: head.others

/-- The symbols of names with a bar before each. -/
def otherSymbols : List String → List Symbol
  | [] => []
  | name :: names => .fixed .pipe :: ⟨.name, name⟩ :: otherSymbols names

def symbols (head : ClauseHead) : List Symbol :=
  .fixed .kwCatch :: .fixed .openParen :: ⟨.name, head.name⟩ ::
    (otherSymbols head.others ++ [⟨.var, head.var⟩, .fixed .closeParen])

end ClauseHead

/-! ### Statements -/

/-- A statement. The bodies of compound statements are blocks. -/
inductive Statement where
  | empty
  | echo (shown : Literal)
  | block (body : List Statement)
  | conditional (condition : Condition) (body : List Statement)
      (others : List (Condition × List Statement)) (last : Option (List Statement))
  | whileLoop (condition : Condition) (body : List Statement)
  | doLoop (body : List Statement) (condition : Condition)
  | forLoop (condition : Condition) (body : List Statement)
  | switch (subject : Condition) (groups : List (Label × List Statement))
  | jump (way : Jump) (level : Option Nat)
  | ret
  | exit
  | guarded (body : List Statement) (clauses : List (ClauseHead × List Statement))
      (last : Option (List Statement))

namespace Statement

mutual

/-- The symbols that a statement is written with. -/
@[simp] def symbols : Statement → List Symbol
  | empty => [.fixed .semicolon]
  | echo shown => [.fixed .kwEcho, shown.symbol, .fixed .semicolon]
  | block body => inBraces (sequenceSymbols body)
  | conditional condition body others last =>
      .fixed .kwIf :: (condition.inParens ++ (inBraces (sequenceSymbols body) ++
        (branchSymbols others ++ lastSymbols .kwElse last)))
  | whileLoop condition body =>
      .fixed .kwWhile :: (condition.inParens ++ inBraces (sequenceSymbols body))
  | doLoop body condition =>
      .fixed .kwDo :: (inBraces (sequenceSymbols body) ++
        (.fixed .kwWhile :: (condition.inParens ++ [.fixed .semicolon])))
  | forLoop condition body =>
      .fixed .kwFor :: .fixed .openParen :: .fixed .semicolon :: condition.symbol ::
        .fixed .semicolon :: .fixed .closeParen :: inBraces (sequenceSymbols body)
  | switch subject groups =>
      .fixed .kwSwitch :: (subject.inParens ++ inBraces (groupSymbols groups))
  | jump way level => .fixed way.kind :: (Jump.levelSymbols level ++ [.fixed .semicolon])
  | ret => [.fixed .kwReturn, .fixed .semicolon]
  | exit => [.fixed .kwExit, .fixed .semicolon]
  | guarded body clauses last =>
      .fixed .kwTry :: (inBraces (sequenceSymbols body) ++
        (clauseSymbols clauses ++ lastSymbols .kwFinally last))

/-- The symbols of statements one after another. -/
def sequenceSymbols : List Statement → List Symbol
  | [] => []
  | s :: rest => s.symbols ++ sequenceSymbols rest

/-- The symbols of the further branches of a conditional. -/
def branchSymbols : List (Condition × List Statement) → List Symbol
  | [] => []
  | (condition, body) :: rest =>
      .fixed .kwElseIf :: (condition.inParens ++
        (inBraces (sequenceSymbols body) ++ branchSymbols rest))

/-- The symbols of the groups of a switch. -/
def groupSymbols : List (Label × List Statement) → List Symbol
  | [] => []
  | (label, body) :: rest =>
      label.symbols ++ (.fixed .colon :: (sequenceSymbols body ++ groupSymbols rest))

/-- The symbols of clauses. -/
def clauseSymbols : List (ClauseHead × List Statement) → List Symbol
  | [] => []
  | (head, body) :: rest =>
      head.symbols ++ (inBraces (sequenceSymbols body) ++ clauseSymbols rest)

/-- The symbols of a last block, if there is one, after the word for it. -/
def lastSymbols (word : Kind) : Option (List Statement) → List Symbol
  | none => []
  | some body => .fixed word :: inBraces (sequenceSymbols body)

end

/-- The branches of a conditional that may be taken: none under a condition that is known to fail,
none after one that is known to hold, and else the last one. -/
def taken : List (Option Bool × Exits) → (last : Exits) → List Exits
  | [], last => [last]
  | (some true, body) :: _, _ => [body]
  | (some false, _) :: rest, last => taken rest last
  | (none, body) :: rest, last => body :: taken rest last

mutual

/-- The exits of a statement. A loop whose condition is known to fail is passed by. -/
@[simp] def exits (t : ClassTable) (named : String → Option ClassId) : Statement → Exits
  | empty => .passing
  | echo _ => .passing
  | block body => sequenceExits t named .passing body
  | conditional condition body others last =>
      .oneOf (taken ((condition.truth, sequenceExits t named .passing body) ::
        branchExits t named others) ((lastExits t named last).getD .passing))
  | whileLoop condition body =>
      if condition.truth = some false then .passing
      else (sequenceExits t named .passing body).loop condition.truth
  | doLoop body condition => (sequenceExits t named .passing body).doWhile condition.truth
  | forLoop condition body =>
      if condition.truth = some false then .passing
      else (sequenceExits t named .passing body).loop condition.truth
  | switch _ groups => .switch (groupExits t named groups) (groups.any (·.1.isDefault))
  | jump way level => way.exits (level.getD 1)
  | ret => .stopping
  | exit => .stopping
  | guarded body clauses last =>
      .guarded t (sequenceExits t named .passing body) (handlers t named clauses)
        (lastExits t named last)

/-- The exits of statements one after another, after something with the given exits. -/
def sequenceExits (t : ClassTable) (named : String → Option ClassId) (before : Exits) :
    List Statement → Exits
  | [] => before
  | s :: rest => sequenceExits t named (before.andThen (s.exits t named)) rest

/-- The conditions of branches with the exits of the branches. -/
def branchExits (t : ClassTable) (named : String → Option ClassId) :
    List (Condition × List Statement) → List (Option Bool × Exits)
  | [] => []
  | (condition, body) :: rest =>
      (condition.truth, sequenceExits t named .passing body) :: branchExits t named rest

/-- The exits of the groups of a switch. -/
def groupExits (t : ClassTable) (named : String → Option ClassId) :
    List (Label × List Statement) → List Exits
  | [] => []
  | (_, body) :: rest => sequenceExits t named .passing body :: groupExits t named rest

/-- The classes that clauses catch, with the exits of the clauses. -/
def handlers (t : ClassTable) (named : String → Option ClassId) :
    List (ClauseHead × List Statement) → List Handler
  | [] => []
  | (head, body) :: rest =>
      ⟨head.names.filterMap named, sequenceExits t named .passing body⟩ :: handlers t named rest

/-- The exits of a last block. -/
def lastExits (t : ClassTable) (named : String → Option ClassId) :
    Option (List Statement) → Option Exits
  | none => none
  | some body => some (sequenceExits t named .passing body)

end

mutual

/-- The variables that the clauses in a statement declare. -/
@[simp] def binds : Statement → List String
  | block body => sequenceBinds body
  | conditional _ body others last =>
      sequenceBinds body ++ (branchBinds others ++ lastBinds last)
  | whileLoop _ body => sequenceBinds body
  | doLoop body _ => sequenceBinds body
  | forLoop _ body => sequenceBinds body
  | switch _ groups => groupBinds groups
  | guarded body clauses last => sequenceBinds body ++ (clauseBinds clauses ++ lastBinds last)
  | _ => []

def sequenceBinds : List Statement → List String
  | [] => []
  | s :: rest => s.binds ++ sequenceBinds rest

def branchBinds : List (Condition × List Statement) → List String
  | [] => []
  | (_, body) :: rest => sequenceBinds body ++ branchBinds rest

def groupBinds : List (Label × List Statement) → List String
  | [] => []
  | (_, body) :: rest => sequenceBinds body ++ groupBinds rest

def clauseBinds : List (ClauseHead × List Statement) → List String
  | [] => []
  | (head, body) :: rest => head.var :: (sequenceBinds body ++ clauseBinds rest)

def lastBinds : Option (List Statement) → List String
  | none => []
  | some body => sequenceBinds body

end

mutual

/-- Whether a statement may stand in a setting. Levels are positive numbers below 2^32. -/
def WellFormed (Γ : Setting) : Statement → Prop
  | empty => True
  | echo _ => True
  | block body => SequenceWellFormed Γ body
  | conditional condition body others last =>
      condition.IsDeclared Γ ∧ SequenceWellFormed Γ body ∧
        BranchesWellFormed (Γ.declaring (sequenceBinds body)) others ∧
        LastWellFormed ((Γ.declaring (sequenceBinds body)).declaring (branchBinds others)) last
  | whileLoop condition body => condition.IsDeclared Γ ∧ SequenceWellFormed Γ.inside body
  | doLoop body condition =>
      SequenceWellFormed Γ.inside body ∧ condition.IsDeclared (Γ.declaring (sequenceBinds body))
  | forLoop condition body => condition.IsDeclared Γ ∧ SequenceWellFormed Γ.inside body
  | switch subject groups => subject.IsDeclared Γ ∧ GroupsWellFormed Γ.inside groups
  | jump _ level => 1 ≤ level.getD 1 ∧ level.getD 1 ≤ Γ.depth ∧ level.getD 1 < 2 ^ 32
  | ret => True
  | exit => True
  | guarded body clauses last =>
      (clauses ≠ [] ∨ last ≠ none) ∧ SequenceWellFormed Γ body ∧
        ClausesWellFormed (Γ.declaring (sequenceBinds body)) clauses ∧
        LastWellFormed ((Γ.declaring (sequenceBinds body)).declaring (clauseBinds clauses)) last

def SequenceWellFormed (Γ : Setting) : List Statement → Prop
  | [] => True
  | s :: rest => s.WellFormed Γ ∧ SequenceWellFormed (Γ.declaring s.binds) rest

def BranchesWellFormed (Γ : Setting) : List (Condition × List Statement) → Prop
  | [] => True
  | (condition, body) :: rest =>
      condition.IsDeclared Γ ∧ SequenceWellFormed Γ body ∧
        BranchesWellFormed (Γ.declaring (sequenceBinds body)) rest

def GroupsWellFormed (Γ : Setting) : List (Label × List Statement) → Prop
  | [] => True
  | (_, body) :: rest =>
      SequenceWellFormed Γ body ∧ GroupsWellFormed (Γ.declaring (sequenceBinds body)) rest

def ClausesWellFormed (Γ : Setting) : List (ClauseHead × List Statement) → Prop
  | [] => True
  | (head, body) :: rest =>
      (∀ name ∈ head.names, (Γ.classNamed? name).isSome) ∧
        SequenceWellFormed (Γ.declaring [head.var]) body ∧
        ClausesWellFormed ((Γ.declaring [head.var]).declaring (sequenceBinds body)) rest

def LastWellFormed (Γ : Setting) : Option (List Statement) → Prop
  | none => True
  | some body => SequenceWellFormed Γ body

end

end Statement

end ScriptCheck
