import ScriptCheck.Analysis.Expr.Facts
import ScriptCheck.Class.Members

/-!
Calls and members: argument lists, and the use of methods, properties and constants.

The readers here take the reader of expressions for what stands inside them.
-/

namespace ScriptCheck.Check

/-! ### Argument lists -/

/-- Reads arguments up to the closing parenthesis. Commas after the first argument are passed
over, and after an argument a comma or the closing parenthesis must come. -/
def argumentsFrom (expr : ExprReader) : Nat → List Facts → Check (List Facts)
  | 0, _ => throw .spent
  | n + 1, args => do
      let here ← kind
      if here == .closeParen then return args
      else if here == .comma && !args.isEmpty then
        let _ ← advance
        argumentsFrom expr n args
      else
        let arg ← expr .comma
        let next ← kind
        if next == .comma || next == .closeParen then argumentsFrom expr n (args ++ [arg])
        else reject

/-- Reads an argument list in parentheses. -/
def arguments (expr : ExprReader) : Check (List Facts) := do
  let _ ← require .openParen
  let args ← argumentsFrom expr (← bound) []
  let _ ← require .closeParen
  return args

/-- Checks the types of arguments, the first of which has the given index. -/
def checkArguments (signature : Signature) : Nat → List Facts → Check Unit
  | _, [] => return
  | index, arg :: args => do
      if let some param := signature.parameterAt index then
        unless ← accepts param.type arg.type do
          report (.argumentMismatch param.type.display arg.type.display) arg.position
      checkArguments signature (index + 1) args

/-- Checks the number and types of the arguments of a call, and gives the exceptions it may
raise. -/
def checkedCall (signature : Signature) (args : List Facts) (position : Position) :
    Check NatSet := do
  if args.length < signature.requiredCount then
    report (.tooFewArguments signature.requiredCount args.length) position
  if let some most := signature.maxCount then
    if most < args.length then
      report (.tooManyArguments most args.length) position
  checkArguments signature 0 args
  return NatSet.ofList signature.throws ∪ allRaises args

/-! ### Members -/

/-- Reports the use of a member that the class at hand may not see. -/
def checkAccess (m : Member) (position : Position) : Check Unit := do
  let s ← get
  let t := s.env.classes
  let allowed := match m.visibility with
    | .everyone => true
    | .owner => s.inClass == some m.owner
    | .family => match s.inClass with
      | some id => t.isSubclass id m.owner || t.isSubclass m.owner id
      | none => false
  unless allowed do
    report (.inaccessibleMember (t.nameOf m.owner) m.name m.visibility.label) position

/-- Reports a member that a class does not have. -/
def reportUnknownMember (id : ClassId) (member : String) (position : Position) : Check Unit := do
  report (.unknownMember (← className id) member) position

/-- Reads the arguments of a call of a method. Constructors are looked up along the extended
classes only. -/
def methodCall (expr : ExprReader) (owner : Option ClassId) (name : String) (position : Position) :
    Check Facts := do
  let args ← arguments expr
  match owner with
  | none => return { type := ← mixed, position := position, raises := allRaises args }
  | some id =>
      let t ← classes
      let found :=
        if Text.sameIgnoringCase name constructorName then t.constructorOf? id
        else t.method? id name
      match found with
      | none =>
          reportUnknownMember id name position
          return { type := ← mixed, position := position }
      | some method =>
          checkAccess method.toMember position
          let raises ← checkedCall method.signature args position
          return { type := ← callType method.signature, position := position, raises := raises }

/-- The type of a property of an object or class; `shown` is how a missing one is named. -/
def propertyType (owner : Option ClassId) (name shown : String) (position : Position) :
    Check Ty := do
  match owner with
  | none => mixed
  | some id =>
      match (← classes).property? id name with
      | some property =>
          checkAccess property.toMember position
          return property.type
      | none =>
          reportUnknownMember id shown position
          mixed

/-- The type of a constant of a class. -/
def constantType (owner : Option ClassId) (name : String) (position : Position) :
    Check Ty := do
  match owner with
  | none => mixed
  | some id =>
      match (← classes).constant? id name with
      | some constant =>
          checkAccess constant.toMember position
          return constant.type
      | none =>
          reportUnknownMember id name position
          mixed

/-- Reads what follows the name of a class: `::` and a member. -/
def staticAccess (expr : ExprReader) (name : String) (position : Position) : Check Facts := do
  let _ ← require .doubleColon
  let owner ← classNamed? name
  if owner.isNone then
    report (.unknownClass name) position
  let token ← advance
  let memberPosition ← positionOf token
  match token.kind with
  | .kwClass => return { type := ← typeOf "string", position := position }
  | .name =>
      if (← kind) == .openParen then
        let result ← methodCall expr owner token.value memberPosition
        return { result with position := position }
      else return { type := ← constantType owner token.value memberPosition, position := position }
  | .var =>
      let type ← propertyType owner token.value ("$" ++ token.value) memberPosition
      return { type := type, position := position, target := some (.typed type) }
  | _ => rejectToken token

/-- The class of an object expression. Something that cannot be an object is reported. -/
def objectClass (object : Facts) : Check (Option ClassId) :=
  match object.type with
  | .ofClass id _ => return some id
  | .mixed | .object => return none
  | other => do
      report (.notAnObject other.display) object.position
      return none

/-- Reads what follows an object: `->` and a member. -/
def memberAccess (expr : ExprReader) (object : Facts) : Check Facts := do
  let _ ← require .arrow
  let owner ← objectClass object
  let token ← advance
  let position ← positionOf token
  match token.kind with
  | .name =>
      let result ←
        if (← kind) == .openParen then methodCall expr owner token.value position
        else do
          let type ← propertyType owner token.value token.value position
          pure { type := type, position := position, target := some (.typed type) }
      return { result with
        raises := result.raises ∪ object.raises
        position := object.position }
  | .var =>
      -- a member whose name is only known when the program runs
      let type ← mixed
      return { type := type, position := position, target := some (.typed type) }
  | _ => rejectToken token

end ScriptCheck.Check
