import ScriptCheck.Class.Lineage
import ScriptCheck.Flow.Exits

/-!
The exits of a compound statement, from the exits of its parts.
-/

namespace ScriptCheck

/-- The levels of jumps seen from outside one loop or switch: a jump of level one ends there. -/
def outerLevels (levels : NatSet) : NatSet :=
  NatSet.ofList ((levels.filter (2 ≤ ·)).elems.map (· - 1))

namespace Exits

/-- A statement that nothing leaves never completes, which counts as stopping. -/
def orStops (s : Exits) : Exits :=
  if s.completes || s.stops || !s.breaks.isEmpty || !s.continues.isEmpty then s
  else { s with stops := true }

/-- The ways out of either of two statements. -/
def join (a b : Exits) : Exits where
  completes := a.completes || b.completes
  stops := a.stops || b.stops
  breaks := a.breaks ∪ b.breaks
  continues := a.continues ∪ b.continues
  raises := a.raises ∪ b.raises

/-- One statement after another. What follows a statement that does not complete is never run. -/
def andThen (a b : Exits) : Exits :=
  if a.completes then { a with completes := false }.join b else a

/-- One of several branches. -/
def oneOf (l : List Exits) : Exits :=
  (l.foldl join {}).orStops

/-- A loop that tests its condition first. The condition's value is given if it is known; a loop
whose condition is known to hold is left only by a jump. -/
def loop (body : Exits) (condition : Option Bool) : Exits :=
  orStops {
    completes := condition != some true || body.mayBreak
    stops := body.stops
    breaks := outerLevels body.breaks
    continues := outerLevels body.continues
    raises := body.raises }

/-- A loop that tests its condition last. The condition is only reached if the body completes or
continues. -/
def doWhile (body : Exits) (condition : Option Bool) : Exits :=
  orStops {
    completes :=
      ((body.completes || body.mayContinue) && condition != some true) || body.mayBreak
    stops := body.stops
    breaks := outerLevels body.breaks
    continues := outerLevels body.continues
    raises := body.raises }

/-- What one group of a switch contributes. Breaks leave the switch, and a plain continue is meant
for the loop around it. -/
def switchGroup (group : Exits) (isLast : Bool) : Exits where
  completes := group.mayBreak || (isLast && group.completes)
  stops := group.stops
  breaks := outerLevels group.breaks
  continues := group.continues.filter (· == 1) ∪ outerLevels group.continues
  raises := group.raises

/-- Joins the contributions of the groups of a switch. The end of the last one is the end
of the switch. -/
def switchGroups : List Exits → Exits
  | [] => {}
  | [group] => group.switchGroup true
  | group :: groups => (group.switchGroup false).join (switchGroups groups)

/-- A switch with the given groups. Without a default, or without any group, control may pass it
by. -/
def switch (groups : List Exits) (hasDefault : Bool) : Exits :=
  let passes : Exits := { completes := !hasDefault || groups.isEmpty }
  (passes.join (switchGroups groups)).orStops

end Exits

/-- The exceptions that a clause naming the given classes does not catch. A clause catches a class
if it names it or an ancestor of it. -/
def uncaught (t : ClassTable) (raises : NatSet) (caught : List ClassId) : NatSet :=
  raises.filter fun raised => !caught.any (t.isSubclass raised ·)

/-- The exceptions that a list of declared classes does not cover. An unchecked class needs no
declaration. -/
def undeclared (t : ClassTable) (raises : NatSet) (declared : List ClassId) : NatSet :=
  raises.filter fun raised =>
    !t.isUnchecked raised && !declared.any (t.isSubclass raised ·)

/-- A clause that catches exceptions of some classes. -/
structure Handler where
  types : List ClassId
  body : Exits
  deriving DecidableEq

/-- A body with its clauses and its final block. A final block that does not complete decides
alone. -/
def Exits.guarded (t : ClassTable) (body : Exits) (clauses : List Handler)
    (finalBlock : Option Exits) : Exits :=
  let caught := clauses.flatMap (·.types)
  let kept := { body with raises := uncaught t body.raises caught }
  let result := clauses.foldl (fun s clause => s.join clause.body) kept
  match finalBlock with
  | none => result.orStops
  | some last =>
      if last.completes then (result.join { last with completes := false }).orStops
      else last

end ScriptCheck
