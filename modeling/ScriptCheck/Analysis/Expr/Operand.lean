import ScriptCheck.Analysis.Expr.Call
import ScriptCheck.Token.Number

/-!
Operands: literals, variables, names, arrays, groups, casts, instances and signs.
-/

namespace ScriptCheck.Check

/-! ### Literals, variables and names -/

/-- Reads a literal. -/
def literal : Check Facts := do
  let token ← advance
  let position ← positionOf token
  match token.kind with
  | .number =>
      let digits := token.value.toList
      let type ← typeOf (if Number.isInteger digits then "int" else "float")
      return { type := type, position := position, truth := some (Number.isNonzero digits) }
  | .text =>
      let truth := !(token.value.isEmpty || token.value == "0")
      return { type := ← typeOf "string", position := position, truth := some truth }
  | .kwTrue => return { type := ← typeOf "boolean", position := position, truth := some true }
  | .kwFalse => return { type := ← typeOf "boolean", position := position, truth := some false }
  | .kwNull => return { type := ← typeOf "null", position := position, truth := some false }
  | _ => rejectToken token

/-- The class of the object at hand: that of a routine that is not static. -/
def thisClass? : Check (Option ClassId) := do
  match (← get).routine with
  | some routine => return if routine.isStatic then none else routine.owner
  | none => return none

/-- Reads a variable. One that is not declared is reported, unless it is just being assigned. -/
def variableUse : Check Facts := do
  let token ← advance
  let position ← positionOf token
  if token.value == "this" then
    match ← thisClass? with
    | some id => return { type := ← instanceType id, position := position, truth := some true }
    | none =>
        report (.undeclaredVariable token.value) position
        return { type := ← mixed, position := position }
  else
    let type ← match ← variableNamed? token.value with
      | some v => pure v.type
      | none => do
          unless (← kind) == .assign do
            report (.undeclaredVariable token.value) position
          mixed
    return { type := type, position := position, target := some (.var token.value) }

/-- Reads a name: of a function that is called, of a class before `::`, or of a constant. -/
def nameUse (expr : ExprReader) : Check Facts := do
  let token ← advance
  let position ← positionOf token
  let next ← kind
  if next == .doubleColon then staticAccess expr token.value position
  else if token.kind != .name then rejectToken token
  else if next == .openParen then
    let found := (← get).env.function? token.value
    let args ← arguments expr
    match found with
    | some entry =>
        let raises ← checkedCall entry.signature args position
        return { type := ← callType entry.signature, position := position, raises := raises }
    | none =>
        report (.undeclaredFunction token.value) position
        return { type := ← mixed, position := position, raises := allRaises args }
  else
    let type ← match (← get).env.constant? token.value with
      | some type => pure type
      | none => mixed
    return { type := type, position := position }

/-! ### Signs -/

/-- Reads a sign and its operand. Only something that can be assigned to can be stepped. -/
def signed (expr : ExprReader) : Check Facts := do
  let operator ← advance
  let position ← positionOf operator
  let right ← expr .unary
  let isStep := operator.kind == .plusPlus || operator.kind == .minusMinus
  if operator.kind == .bang then
    return {
      type := ← typeOf "boolean"
      position := position
      truth := right.truth.map (!·)
      raises := right.raises }
  else if isStep && right.target.isNone then rejectToken operator
  else
    let type ← if right.type.isNumeric then pure right.type else mixed
    return { type := type, position := position, raises := right.raises }

/-! ### Groups and casts -/

/-- The descriptor of the type that a cast of the given name, in lower case, gives. -/
def castType? (name : String) : Option String :=
  match name with
  | "int" | "integer" => some "int"
  | "bool" | "boolean" => some "boolean"
  | "float" | "double" | "real" => some "float"
  | "string" => some "string"
  | "array" => some "mixed[]"
  | "object" => some "object"
  | _ => none

/-- The cast that the cursor is inside of: a type name right before the closing parenthesis. -/
def castAhead? : Check (Option String) := do
  let token ← current
  let isName := token.kind == .name || token.kind == .kwArray
  if isName && (← kindAhead 1) == .closeParen then
    return castType? (Text.lowerAscii token.value)
  else return none

/-- Reads a cast or an expression in parentheses; neither can be assigned to. -/
def grouped (expr : ExprReader) : Check Facts := do
  let opening ← advance
  let position ← positionOf opening
  match ← castAhead? with
  | some descriptor =>
      let _ ← advance
      let _ ← advance
      let operand ← expr .unary
      return { type := ← typeOf descriptor, position := position, raises := operand.raises }
  | none =>
      let inner ← expr .lowest
      let _ ← require .closeParen
      return { inner with target := none }

/-! ### Arrays -/

/-- What is known of one element of an array literal. -/
structure ArrayItem where
  key : Keys
  type : Ty
  raises : NatSet

/-- The keys that an expression of the type gives. -/
def keysGiven : Ty → Keys
  | .int => .int
  | .string => .string
  | _ => .either

/-- Reads one element of an array literal, with or without its key. -/
def arrayItem (expr : ExprReader) : Check ArrayItem := do
  let first ← expr .comma
  if ← takes .doubleArrow then
    let value ← expr .comma
    return ⟨keysGiven first.type, value.type, first.raises ∪ value.raises⟩
  else return ⟨.int, first.type, first.raises⟩

/-- Reads the elements of an array literal up to its closing token. -/
def arrayItems (expr : ExprReader) (close : Kind) : Nat → List ArrayItem → Check (List ArrayItem)
  | 0, _ => throw .spent
  | n + 1, items => do
      if (← kind) == close then return items
      else
        let item ← arrayItem expr
        if ← takes .comma then arrayItems expr close n (items ++ [item])
        else if (← kind) == close then return items ++ [item]
        else reject

/-- The value that all members of a list have, if there is one. -/
def common? [BEq α] : List α → Option α
  | [] => none
  | a :: rest => if rest.all (· == a) then some a else none

/-- Reads an array literal, in brackets or in parentheses after `array`. -/
def arrayLiteral (expr : ExprReader) : Check Facts := do
  let opening ← advance
  let position ← positionOf opening
  let isWord := opening.kind == .kwArray
  if isWord then
    let _ ← require .openParen
  let close : Kind := if isWord then .closeParen else .closeBracket
  let items ← arrayItems expr close (← bound) []
  let _ ← require close
  let key := (common? (items.map (·.key))).getD .either
  let element := (common? (items.map (·.type))).getD .mixed
  let type ← typeOf (String.ofList (insertTag element.chars key.tag.toList))
  return {
    type := type
    position := position
    truth := some (!items.isEmpty)
    raises := items.foldr (fun item raises => item.raises ∪ raises) ∅ }

/-! ### Instances -/

/-- Reads the creation of an instance, with or without arguments. -/
def instanceCreation (expr : ExprReader) : Check Facts := do
  let start ← positionOf (← advance)
  let token ← advance
  unless token.kind == .name || token.kind == .kwStatic do
    rejectToken token
  let position ← positionOf token
  let args ← if (← kind) == .openParen then arguments expr else pure []
  match ← classNamed? token.value with
  | none =>
      report (.unknownClass token.value) position
      return { type := ← mixed, position := start, raises := allRaises args }
  | some id =>
      let t ← classes
      if let some decl := t.get? id then
        unless decl.hasInstances do
          report (.abstractInstance decl.name) position
      let raises ← match t.constructorOf? id with
        | some constructor => do
            checkAccess constructor.toMember position
            checkedCall constructor.signature args position
        | none => checkedCall {} args position
      return { type := ← instanceType id, position := start, truth := some true, raises := raises }

/-! ### Any operand -/

/-- Reads an operand. -/
def operand (expr : ExprReader) : Check Facts := do
  match ← kind with
  | .number | .text | .kwTrue | .kwFalse | .kwNull => literal
  | .var => variableUse
  | .name | .kwStatic => nameUse expr
  | .bang | .dash | .plus | .plusPlus | .minusMinus => signed expr
  | .openParen => grouped expr
  | .openBracket | .kwArray => arrayLiteral expr
  | .kwNew => instanceCreation expr
  | _ => reject

end ScriptCheck.Check
