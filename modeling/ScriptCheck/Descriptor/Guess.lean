import ScriptCheck.Descriptor.Cache
import ScriptCheck.Ty.Value

/-!
Descriptors of values.

`Value.guess` writes the descriptor of a value's shape, and `checkValue` checks a value against a
descriptor.
-/

namespace ScriptCheck

/-- The keys that an array has. -/
def keysOf (entries : List (Key × Value)) : Keys :=
  if entries.all fun e => Keys.int.admits e.1 then .int
  else if entries.all fun e => Keys.string.admits e.1 then .string
  else .either

mutual

/-- The descriptor of a value's shape. The elements of an array count as mixed unless they all
have the same descriptor. -/
def Value.guess : Value → List Char
  | .null => "null".toList
  | .boolean _ => "boolean".toList
  | .int _ => "int".toList
  | .float _ => "float".toList
  | .string _ => "string".toList
  | .resource _ => "resource".toList
  | .object className => className.toList
  | .array entries =>
      match guesses entries with
      | [] => "mixed[]".toList
      | first :: others =>
          let element := if others.all (· == first) then first else "mixed".toList
          insertTag element (keysOf entries).tag.toList

/-- The descriptors of the elements of an array. -/
def Value.guesses : List (Key × Value) → List (List Char)
  | [] => []
  | (_, value) :: rest => value.guess :: guesses rest

end

/-- Checks a value against a descriptor. -/
def checkValue (cache : TypeCache) (t : ClassTable) (descriptor : String) (value : Value) :
    Except DescriptorFault Value × TypeCache :=
  match cache.compile t descriptor with
  | (.error e, cache) => (.error e, cache)
  | (.ok made, cache) =>
      if made.type.admits t value then (.ok value, cache)
      else (.error (.mismatch made.type.display (String.ofList value.guess)), cache)

end ScriptCheck
