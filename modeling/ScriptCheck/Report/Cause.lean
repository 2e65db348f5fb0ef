import ScriptCheck.Report.Position
import ScriptCheck.Text.Quoted

/-!
What can be wrong with a source file.

A `Cause` names one kind of mistake with the texts that describe it; its wording, its short label
and the advice shown beside it are functions of the cause. A `Fault` is a cause at a place.
-/

namespace ScriptCheck

/-- How serious a report is. -/
inductive Severity where
  | notice
  | warning
  | error
  deriving DecidableEq, Repr, Inhabited

namespace Severity

/-- The rank of a severity: the graver, the higher. -/
def rank : Severity → Nat
  | notice => 0
  | warning => 1
  | error => 2

/-- The word for a severity in a report. -/
def label : Severity → String
  | notice => "notice"
  | warning => "warning"
  | error => "error"

end Severity

/-- A mistake in a source file. -/
inductive Cause where
  | strayCharacter (token : String)
  | unexpectedToken (token : String)
  | misplacedToken (token message : String)
  | unreadableNumber (token : String)
  | unreachableCode
  | missingReturn (function : String)
  | missingReturnValue (function : String)
  | valueFromVoid (function : String)
  | undeclaredException (exception function : String)
  | typeMismatch (expected received : String)
  | argumentMismatch (expected received : String)
  | tooManyArguments (expected received : Nat)
  | tooFewArguments (expected received : Nat)
  | undeclaredVariable (name : String)
  | repeatedFunction (function : String)
  | undeclaredFunction (function : String)
  | repeatedClass (className : String)
  | unknownClass (className : String)
  | unknownMember (className member : String)
  | repeatedMember (className member : String)
  | inaccessibleMember (className member visibility : String)
  | invalidNote (reason : String)
  | cyclicInheritance (className : String)
  | invalidParent (className parent message : String)
  | outsideLoop (keyword : String)
  | abstractInstance (className : String)
  | finalParent (className parent : String)
  | unimplementedMethod (className method : String)
  | invalidKey (expected received : String)
  | notAnObject (received : String)
  | notThrowable (received : String)
  deriving DecidableEq, Repr, Inhabited

namespace Cause

/-- The short label of the kind of mistake. -/
def label : Cause → String
  | strayCharacter .. => "UnrecognisedToken"
  | unexpectedToken .. => "UnexpectedToken"
  | misplacedToken .. => "UnexpectedTokenDetailed"
  | unreadableNumber .. => "NumberParseError"
  | unreachableCode => "UnreachableCode"
  | missingReturn .. => "MissingReturn"
  | missingReturnValue .. => "MissingReturnValue"
  | valueFromVoid .. => "ReturnValueInVoid"
  | undeclaredException .. => "UndeclaredException"
  | typeMismatch .. => "TypeMatchError"
  | argumentMismatch .. => "ArgumentTypeMatchError"
  | tooManyArguments .. => "UnexpectedArguments"
  | tooFewArguments .. => "MissingArguments"
  | undeclaredVariable .. => "VariableNotDeclared"
  | repeatedFunction .. => "FunctionAlreadyDeclared"
  | undeclaredFunction .. => "FunctionNotDeclared"
  | repeatedClass .. => "ClassAlreadyDeclared"
  | unknownClass .. => "UnknownClass"
  | unknownMember .. => "UnknownMember"
  | repeatedMember .. => "MemberAlreadyDeclared"
  | inaccessibleMember .. => "InaccessibleMember"
  | invalidNote .. => "InvalidAnnotation"
  | cyclicInheritance .. => "CyclicInheritance"
  | invalidParent .. => "InvalidParent"
  | outsideLoop .. => "OutsideLoop"
  | abstractInstance .. => "AbstractInstantiation"
  | finalParent .. => "FinalClassExtended"
  | unimplementedMethod .. => "AbstractMethodNotImplemented"
  | invalidKey .. => "InvalidKeyType"
  | notAnObject .. => "NotAnObject"
  | notThrowable .. => "NotThrowable"

/-- The wording of a mistake. -/
def message : Cause → String
  | strayCharacter token => "unrecognised token: " ++ Text.quote token
  | unexpectedToken token => "unexpected token: " ++ Text.quote token
  | misplacedToken token message =>
      "unexpected token (" ++ message ++ "): " ++ Text.quote token
  | unreadableNumber token => "error parsing number: " ++ Text.quote token
  | unreachableCode => "unreachable code"
  | missingReturn function => "missing return in " ++ function
  | missingReturnValue function => "missing return value in " ++ function
  | valueFromVoid function => "returning a value from void " ++ function
  | undeclaredException exception function =>
      "exception " ++ exception ++ " is not declared in the throws list of " ++ function
  | typeMismatch expected received =>
      "types do not match: expected " ++ expected ++ ", received " ++ received
  | argumentMismatch expected received =>
      "argument types do not match: expected " ++ expected ++ ", received " ++ received
  | tooManyArguments expected received =>
      "too many arguments: expected " ++ toString expected ++ ", received " ++ toString received
  | tooFewArguments expected received =>
      "missing arguments: expected " ++ toString expected ++ ", received " ++ toString received
  | undeclaredVariable name => "variable $" ++ name ++ " not declared"
  | repeatedFunction function => "function " ++ function ++ " already declared"
  | undeclaredFunction function => "function " ++ function ++ " not declared"
  | repeatedClass className => "class " ++ className ++ " already declared"
  | unknownClass className => "unknown class " ++ className
  | unknownMember className member => "unknown member " ++ className ++ "::" ++ member
  | repeatedMember className member =>
      "member " ++ className ++ "::" ++ member ++ " already declared"
  | inaccessibleMember className member visibility =>
      visibility ++ " member " ++ className ++ "::" ++ member ++ " is not accessible"
  | invalidNote reason => "invalid annotation: " ++ reason
  | cyclicInheritance className => "cyclic inheritance involving " ++ className
  | invalidParent className parent message =>
      className ++ " cannot inherit from " ++ parent ++ ": " ++ message
  | outsideLoop keyword => keyword ++ " outside of a loop"
  | abstractInstance className => "cannot instantiate abstract class " ++ className
  | finalParent className parent => className ++ " extends final class " ++ parent
  | unimplementedMethod className method =>
      className ++ " does not implement abstract method " ++ method
  | invalidKey expected received =>
      "invalid key type: expected " ++ expected ++ ", received " ++ received
  | notAnObject received => "not an object: " ++ received
  | notThrowable received => "not throwable: " ++ received

/-- A text between backquotes, as advice shows names. -/
def ticked (s : String) : String := "`" ++ s ++ "`"

/-- The advice shown beside a mistake, if there is any. -/
def tip : Cause → Option String
  | strayCharacter _ => none
  | unexpectedToken token =>
      some ("Unexpected token: " ++ ticked token ++ ", did you miss a semicolon?")
  | misplacedToken token message =>
      some ("Unexpected token: " ++ ticked token ++ ", " ++ message)
  | unreadableNumber token =>
      some ("Invalid number: " ++ ticked token ++ ", is it above the integer limit?")
  | unreachableCode => some "Remove the statement or the jump before it"
  | missingReturn function => some ("Not every path of " ++ ticked function ++ " returns a value")
  | missingReturnValue function => some (ticked function ++ " is declared to return a value")
  | valueFromVoid function => some (ticked function ++ " is declared `void`")
  | undeclaredException exception function =>
      some ("Catch " ++ ticked exception ++ " or add it to the `throws` list of "
        ++ ticked function)
  | typeMismatch expected received =>
      some ("Expected type " ++ ticked expected ++ ", received " ++ ticked received)
  | argumentMismatch expected received =>
      some ("Expected argument type " ++ ticked expected ++ ", received " ++ ticked received)
  | tooManyArguments expected received =>
      some ("Expected at most " ++ toString expected ++ " arguments, received "
        ++ toString received)
  | tooFewArguments expected received =>
      some ("Expected at least " ++ toString expected ++ " arguments, received "
        ++ toString received)
  | undeclaredVariable name =>
      some ("Variable " ++ ticked ("$" ++ name) ++ " is used before assignment")
  | repeatedFunction function => some ("Function " ++ ticked function ++ " already declared")
  | undeclaredFunction function => some ("Function " ++ ticked function ++ " is not declared")
  | repeatedClass className => some ("Class " ++ ticked className ++ " already declared")
  | unknownClass className => some ("Unknown class " ++ ticked className)
  | unknownMember className member => some (ticked className ++ " has no member " ++ ticked member)
  | repeatedMember className member =>
      some (ticked (className ++ "::" ++ member) ++ " already declared")
  | inaccessibleMember className member visibility =>
      some (ticked (className ++ "::" ++ member) ++ " is " ++ visibility
        ++ " and cannot be accessed here")
  | invalidNote reason => some ("Invalid annotation: " ++ reason)
  | cyclicInheritance className => some (ticked className ++ " inherits from itself")
  | invalidParent className parent message =>
      some (ticked className ++ " cannot inherit from " ++ ticked parent ++ ": " ++ message)
  | outsideLoop keyword => some (ticked keyword ++ " used outside of a loop or switch")
  | abstractInstance className =>
      some (ticked className ++ " is abstract and cannot be instantiated")
  | finalParent className parent =>
      some (ticked className ++ " cannot extend final class " ++ ticked parent)
  | unimplementedMethod className method =>
      some (ticked className ++ " must implement " ++ ticked method ++ " or be declared abstract")
  | invalidKey expected received =>
      some ("Container is indexed by " ++ ticked expected ++ ", received " ++ ticked received)
  | notAnObject received => some ("Expected an object, received " ++ ticked received)
  | notThrowable received => some (ticked received ++ " is not an exception")

/-- Unreachable code and undeclared variables are warnings; all else is an error. -/
def severity : Cause → Severity
  | unreachableCode => .warning
  | undeclaredVariable _ => .warning
  | _ => .error

end Cause

/-- A mistake and the place where it was found. -/
structure Fault where
  cause : Cause
  position : Position
  deriving DecidableEq, Repr, Inhabited

end ScriptCheck
