import ScriptCheck.Analysis.State

/-!
Annotations: the structured comments that declare types and exceptions.
-/

namespace ScriptCheck

/-- A name in an annotation or a declaration, with its position. -/
structure NameAt where
  name : String
  position : Position
  deriving DecidableEq, Repr

/-- The content of an annotation: a type descriptor, the absence of a result, the exceptions of a
routine, or the mark of a class whose exceptions need no declaration. -/
inductive Note where
  | type (descriptor : String) (position : Position)
  | void
  | throws (classes : List NameAt)
  | unchecked
  deriving DecidableEq, Repr

namespace Check

/-- Whether a type can start with a token of the kind. -/
def startsType (kind : Kind) : Bool :=
  kind == .name || kind == .kwArray || kind == .kwNull

/-- Reads the index tags of a descriptor and adds them to its text. -/
def descriptorTags : Nat → List Char → Check (List Char)
  | 0, _ => throw .spent
  | n + 1, text => do
      if (← kind) == .openBracket then
        let _ ← advance
        let key ← if (← kind) == .name then do
            let token ← advance
            pure token.value.toList
          else pure []
        let _ ← require .closeBracket
        descriptorTags n (text ++ ['['] ++ key ++ [']'])
      else return text

/-- Reads a descriptor that nests the older form at most so often. -/
def descriptorWithin : Nat → Check (List Char)
  | 0 => throw .spent
  | n + 1 => do
      let base ← current
      unless startsType base.kind do
        fail (.invalidNote ("expected a type, found `" ++ base.value ++ "`"))
          (← positionOf base)
      let _ ← advance
      let text ← descriptorTags (← bound) base.value.toList
      -- in the older form the element type follows the tags
      if base.kind == .kwArray && text.length > "array".length && startsType (← kind) then
        let element ← descriptorWithin n
        return text ++ element
      else return text

/-- Reads the tokens of a type descriptor back into its text. -/
def descriptor : Check String := do
  return String.ofList (← descriptorWithin (← bound))

/-- Reads names separated by commas. -/
def nameList : Nat → Check (List NameAt)
  | 0 => throw .spent
  | n + 1 => do
      let token ← require .name
      let here : NameAt := ⟨token.value, ← positionOf token⟩
      if ← takes .comma then
        let rest ← nameList n
        return here :: rest
      else return [here]

/-- Reads one or more names separated by commas. -/
def names : Check (List NameAt) := do
  nameList (← bound)

/-- Reads what stands between the delimiters of an annotation. -/
def noteContent : Check Note := do
  let token ← current
  let isWord := fun word => token.kind == .name && Text.sameIgnoringCase token.value word
  if isWord "void" then
    let _ ← advance
    return .void
  else if isWord "unchecked" then
    let _ ← advance
    return .unchecked
  else if isWord "throws" then
    let _ ← advance
    return .throws (← names)
  else return .type (← descriptor) (← positionOf token)

/-- Reads an annotation. -/
def note : Check Note := do
  let _ ← require .openNote
  let content ← noteContent
  let token ← current
  unless token.kind == .closeNote do
    fail (.invalidNote ("unexpected `" ++ token.value ++ "` in annotation"))
      (← positionOf token)
  let _ ← advance
  return content

/-- Reads an annotation if there is one. -/
def note? : Check (Option Note) := do
  if (← kind) == .openNote then return some (← note)
  else return none

end Check

end ScriptCheck
