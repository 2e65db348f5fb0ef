import ScriptCheck.Ty.Basic
import ScriptCheck.NatSet

/-!
How control leaves a statement.

A statement may complete, stop the routine, or jump out of enclosing loops and switches. The level
of a jump counts the constructs it leaves, so it is at least one; `break` and `continue` without a
level have level one. A statement may also raise exceptions.
-/

namespace ScriptCheck

/-- The ways control may leave a statement, and the exceptions that may escape from it. -/
structure Exits where
  completes : Bool := false
  stops : Bool := false
  breaks : NatSet := ∅
  continues : NatSet := ∅
  raises : NatSet := ∅
  deriving DecidableEq

namespace Exits

/-- Control passes to the next statement. -/
def passing : Exits := { completes := true }

/-- Control leaves the routine. -/
def stopping : Exits := { stops := true }

/-- Control leaves the given number of constructs, one if the number is zero. -/
def breaking (level : Nat) : Exits := { breaks := NatSet.ofList [max level 1] }

/-- Control goes on with the construct at the given level, the first if the level is zero. -/
def continuing (level : Nat) : Exits := { continues := NatSet.ofList [max level 1] }

instance : Inhabited Exits := ⟨passing⟩

/-- The exits with more exceptions. -/
def alsoRaising (s : Exits) (classes : NatSet) : Exits :=
  { s with raises := s.raises ∪ classes }

/-- Whether a plain `break` may be reached. -/
def mayBreak (s : Exits) : Bool := decide (1 ∈ s.breaks)

/-- Whether a plain `continue` may be reached. -/
def mayContinue (s : Exits) : Bool := decide (1 ∈ s.continues)

/-- The levels of the breaks that leave more than one construct. -/
def farBreaks (s : Exits) : List Nat := s.breaks.elems.filter (2 ≤ ·)

/-- The levels of the continues that leave at least one construct. -/
def farContinues (s : Exits) : List Nat := s.continues.elems.filter (2 ≤ ·)

end Exits

end ScriptCheck
