import Mathlib.Tactic
import ScriptCheck.Flow.Compose

/-!
Runs of statements.

A `Skeleton` is a statement of which only the control flow is kept: at its leaves stand exits, and
its nodes are the compound statements. `Skeleton.exits` computes the exits from the leaves up.
`Ends` says independently of this how a finite run of a skeleton can end: a run of a leaf ends in
any outcome that its exits cover (`Exits.Covers`), and the rules for the nodes follow control
through them. Loops go round any number of times; a loop whose condition is known to hold does not
end at its test.
-/

namespace ScriptCheck

/-! ### Outcomes -/

/-- How a run of a statement ends. The level of a jump counts the constructs it leaves; a routine
that returns and a program that exits have stopped. -/
inductive Outcome where
  | normal
  | broke (level : Nat)
  | continued (level : Nat)
  | stopped
  | raised (id : ClassId)
  deriving DecidableEq, Repr

namespace Outcome

/-- What becomes of the outcome of a body outside the loop around it. There is nothing if control
does not leave the loop: the condition is tested next. -/
def leaveLoop : Outcome → Option Outcome
  | normal => none
  | broke level => some (if level = 1 then normal else broke (level - 1))
  | continued level => if level = 1 then none else some (continued (level - 1))
  | stopped => some stopped
  | raised id => some (raised id)

/-- What becomes of the outcome of a group outside the switch around it. A plain continue is meant
for the loop around the switch. -/
def leaveSwitch : Outcome → Outcome
  | broke level => if level = 1 then normal else broke (level - 1)
  | continued level => if level = 1 then continued 1 else continued (level - 1)
  | other => other

end Outcome

/-- Whether exits admit an outcome. Exits that name a class admit exceptions of its subclasses. -/
def Exits.Covers (t : ClassTable) (s : Exits) : Outcome → Prop
  | .normal => s.completes = true
  | .broke level => 1 ≤ level ∧ level ∈ s.breaks
  | .continued level => 1 ≤ level ∧ level ∈ s.continues
  | .stopped => s.stops = true
  | .raised id => ∃ c ∈ s.raises, t.isSubclass id c = true

/-! ### Skeletons -/

/-- The control flow of a statement. A clause of a guarded body is given by the classes it names
and its own body. -/
inductive Skeleton where
  | leaf (exits : Exits)
  | seq (first second : Skeleton)
  | branch (branches : List Skeleton)
  | loop (condition : Option Bool) (body : Skeleton)
  | doWhile (condition : Option Bool) (body : Skeleton)
  | switch (groups : List Skeleton) (hasDefault : Bool)
  | guarded (body : Skeleton) (clauses : List (List ClassId × Skeleton)) (last : Option Skeleton)

namespace Skeleton

mutual

/-- The exits of a skeleton, from those of its leaves. -/
def exits (t : ClassTable) : Skeleton → Exits
  | leaf s => s
  | seq a b => (a.exits t).andThen (b.exits t)
  | branch branches => Exits.oneOf (exitsOf t branches)
  | loop condition body => (body.exits t).loop condition
  | doWhile condition body => (body.exits t).doWhile condition
  | switch groups hasDefault => Exits.switch (exitsOf t groups) hasDefault
  | guarded body clauses last =>
      Exits.guarded t (body.exits t) (handlersOf t clauses) (lastExits t last)

/-- The exits of several skeletons. -/
def exitsOf (t : ClassTable) : List Skeleton → List Exits
  | [] => []
  | s :: rest => s.exits t :: exitsOf t rest

/-- The clauses of a guarded body with their exits. -/
def handlersOf (t : ClassTable) : List (List ClassId × Skeleton) → List Handler
  | [] => []
  | (types, body) :: rest => ⟨types, body.exits t⟩ :: handlersOf t rest

/-- The exits of a final block. -/
def lastExits (t : ClassTable) : Option Skeleton → Option Exits
  | none => none
  | some last => some (last.exits t)

end

lemma exitsOf_eq_map (t : ClassTable) (l : List Skeleton) :
    exitsOf t l = l.map (Skeleton.exits t) := by
  induction l with
  | nil => rw [exitsOf, List.map_nil]
  | cons s rest ih => rw [exitsOf, ih, List.map_cons]

lemma handlersOf_eq_map (t : ClassTable) (l : List (List ClassId × Skeleton)) :
    handlersOf t l = l.map fun clause => ⟨clause.1, clause.2.exits t⟩ := by
  induction l with
  | nil => rw [handlersOf, List.map_nil]
  | cons clause rest ih => rw [handlersOf, ih, List.map_cons]

/-- Groups of a switch that run into one another. -/
def chain (first : Skeleton) : List Skeleton → Skeleton
  | [] => first
  | next :: rest => first.seq (chain next rest)

end Skeleton

/-! ### Runs -/

/-- Whether a clause that names the given classes catches an exception. -/
def Catches (t : ClassTable) (types : List ClassId) (id : ClassId) : Prop :=
  ∃ c ∈ types, t.isSubclass id c = true

/-- Whether no clause catches an outcome; only exceptions are ever caught. -/
def Escapes (t : ClassTable) (clauses : List (List ClassId × Skeleton)) (o : Outcome) : Prop :=
  ∀ id, o = .raised id → ∀ clause ∈ clauses, ¬ Catches t clause.1 id

/-- A finite run of the skeleton can end in the outcome. -/
inductive Ends (t : ClassTable) : Skeleton → Outcome → Prop
  | leaf {s o} : s.Covers t o → Ends t (.leaf s) o
  | seqLeaves {a b o} : Ends t a o → o ≠ .normal → Ends t (.seq a b) o
  | seqPasses {a b o} : Ends t a .normal → Ends t b o → Ends t (.seq a b) o
  | branch {branches b o} : b ∈ branches → Ends t b o → Ends t (.branch branches) o
  | loopTestFails {condition body} :
      condition ≠ some true → Ends t (.loop condition body) .normal
  | loopLeaves {condition body o o'} :
      Ends t body o → o.leaveLoop = some o' → Ends t (.loop condition body) o'
  | loopRepeats {condition body o o'} :
      Ends t body o → o.leaveLoop = none → Ends t (.loop condition body) o' →
      Ends t (.loop condition body) o'
  | doTestFails {condition body o} :
      Ends t body o → o.leaveLoop = none → condition ≠ some true →
      Ends t (.doWhile condition body) .normal
  | doLeaves {condition body o o'} :
      Ends t body o → o.leaveLoop = some o' → Ends t (.doWhile condition body) o'
  | doRepeats {condition body o o'} :
      Ends t body o → o.leaveLoop = none → Ends t (.doWhile condition body) o' →
      Ends t (.doWhile condition body) o'
  | switchPasses {groups hasDefault} :
      hasDefault = false ∨ groups = [] → Ends t (.switch groups hasDefault) .normal
  | switchEnters {groups hasDefault group rest o} :
      (group :: rest) <:+ groups → Ends t (.chain group rest) o →
      Ends t (.switch groups hasDefault) o.leaveSwitch
  -- the exception may be caught by any clause that names an ancestor of its class
  | uncaught {body clauses o} :
      Ends t body o → Escapes t clauses o → Ends t (.guarded body clauses none) o
  | caught {body clauses id clause o} :
      Ends t body (.raised id) → clause ∈ clauses → Catches t clause.1 id → Ends t clause.2 o →
      Ends t (.guarded body clauses none) o
  -- a final block is run after every outcome, and replaces it unless it completes
  | uncaughtThen {body clauses last o} :
      Ends t body o → Escapes t clauses o → Ends t last .normal →
      Ends t (.guarded body clauses (some last)) o
  | caughtThen {body clauses last id clause o} :
      Ends t body (.raised id) → clause ∈ clauses → Catches t clause.1 id → Ends t clause.2 o →
      Ends t last .normal → Ends t (.guarded body clauses (some last)) o
  | lastDecides {body clauses last o o'} :
      Ends t (.guarded body clauses none) o → Ends t last o' → o' ≠ .normal →
      Ends t (.guarded body clauses (some last)) o'

end ScriptCheck
