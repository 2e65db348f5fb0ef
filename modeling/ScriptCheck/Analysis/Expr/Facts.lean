import ScriptCheck.Analysis.Power
import ScriptCheck.Analysis.State

/-!
What is known of an expression.
-/

namespace ScriptCheck

/-- Where an assignment to an expression stores: in a variable, or in a place of known type. -/
inductive Place where
  | var (name : String)
  | typed (type : Ty)
  deriving DecidableEq, Repr

/-- What is known of an expression: its type, its truth value if it is known, the exceptions it may
raise, where an assignment to it stores, and where it starts. -/
structure Facts where
  type : Ty
  truth : Option Bool := none
  raises : NatSet := ∅
  target : Option Place := none
  position : Position
  deriving DecidableEq, Inhabited

/-- The exceptions that any of some expressions may raise. -/
def allRaises (exprs : List Facts) : NatSet :=
  exprs.foldr (fun e raises => e.raises ∪ raises) ∅

/-- A reader of expressions whose operators bind tighter than a given power. -/
abbrev ExprReader := Power → Check Facts

namespace Check

/-- The type in which the results of both branches of a conditional can be stored. -/
def unify (a b : Ty) : Check Ty :=
  if a == b then return a
  else if a.isNull && b.isNullable then return b
  else if b.isNull && a.isNullable then return a
  else mixed

/-- The type of the result of a call; a routine that returns nothing gives null. -/
def callType (signature : Signature) : Check Ty :=
  match signature.resultType with
  | some type => return type
  | none => typeOf "null"

end Check

end ScriptCheck
