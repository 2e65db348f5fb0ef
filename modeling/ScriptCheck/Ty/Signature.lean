import ScriptCheck.Ty.Basic

/-!
Signatures of functions and methods.
-/

namespace ScriptCheck

/-- A parameter. -/
structure Parameter where
  name : String
  type : Ty
  isOptional : Bool := false
  byReference : Bool := false
  deriving DecidableEq, Repr, Inhabited

/-- The contract of a routine: its parameters, what it returns (nothing if void), the exceptions it
may raise, and whether it takes any number of arguments in place of its last parameter. -/
structure Signature where
  params : List Parameter := []
  resultType : Option Ty := none
  throws : List ClassId := []
  isVariadic : Bool := false
  deriving DecidableEq, Repr, Inhabited

namespace Signature

/-- The number of parameters without a default. -/
def requiredCount (s : Signature) : Nat :=
  s.params.countP (!·.isOptional)

/-- The greatest number of arguments, if there is one. -/
def maxCount (s : Signature) : Option Nat :=
  if s.isVariadic then none else some s.params.length

/-- The parameter that an argument is matched against. -/
def parameterAt (s : Signature) (index : Nat) : Option Parameter :=
  match s.params[index]? with
  | some param => some param
  | none => if s.isVariadic then s.params.getLast? else none

/-- A signature as text. -/
def display (s : Signature) : String :=
  let params := s.params.map fun p => p.type.display ++ " $" ++ p.name
  let result := match s.resultType with
    | some type => type.display
    | none => "void"
  "(" ++ ", ".intercalate params ++ "): " ++ result

end Signature

end ScriptCheck
