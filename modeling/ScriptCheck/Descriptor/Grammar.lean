import ScriptCheck.Class.Table
import ScriptCheck.Text.Blank

/-!
The grammar of type descriptors.

A modern descriptor is a name and any number of index tags, as in `string[int][]`. The older form
puts the tags in front, as in `array[int][]string`; there the element type may be missing, and the
bare word `array` stands for a container of anything. `modernForm?` turns the older form into the
modern one, and `parse?` reads a modern descriptor.
-/

namespace ScriptCheck.Descriptor

/-! ### Index tags -/

/-- Reads as many index tags as there are at the start of a text. -/
def readTags : List Char → List Keys × List Char
  | '[' :: ']' :: rest =>
      let (tags, rest) := readTags rest
      (.either :: tags, rest)
  | '[' :: 'i' :: 'n' :: 't' :: ']' :: rest =>
      let (tags, rest) := readTags rest
      (.int :: tags, rest)
  | '[' :: 's' :: 't' :: 'r' :: 'i' :: 'n' :: 'g' :: ']' :: rest =>
      let (tags, rest) := readTags rest
      (.string :: tags, rest)
  | rest => ([], rest)

/-- The text of a sequence of tags. -/
def writeTags (tags : List Keys) : List Char :=
  tags.flatMap (·.tag.toList)

/-! ### The older form -/

/-- The word that starts a descriptor of the older form. -/
def arrayWord : List Char := "array".toList

/-- What follows the word `array`, in any case, at the start of a text. -/
def afterArray? (cs : List Char) : Option (List Char) :=
  if (cs.take arrayWord.length).map Char.toLower == arrayWord then some (cs.drop arrayWord.length)
  else none

/-- The modern form of a descriptor that nests the older form at most as often as given. -/
def modernWithin : Nat → List Char → Option (List Char)
  | 0, _ => none
  | depth + 1, cs =>
      match afterArray? cs with
      | none => none
      | some [] => some "mixed[]".toList
      | some rest =>
          match readTags rest with
          | ([], _) => none
          | (tags, rest) =>
              match rest.dropWhile Text.isBlank with
              | [] => some ("mixed".toList ++ writeTags tags)
              | element =>
                  if element.contains '\n' then none
                  else some (insertTag ((modernWithin depth element).getD element) (writeTags tags))

/-- The modern form of a descriptor in the older form, nothing for any other text. An element of
one line may be in the older form again; it is shorter than the whole. -/
def modernForm? (cs : List Char) : Option (List Char) :=
  modernWithin (cs.length + 1) cs

/-! ### The modern form -/

/-- A character a descriptor's name may start with. -/
def isNameStart (c : Char) : Bool :=
  ('a' ≤ c && c ≤ 'z') || ('A' ≤ c && c ≤ 'Z') || c == '_' || c == '\\'

/-- A character a descriptor's name may go on with. -/
def isNameRest (c : Char) : Bool :=
  isNameStart c || ('0' ≤ c && c ≤ '9')

/-- Reads a modern descriptor: its name and its tags, the outermost first. -/
def parse? : List Char → Option (List Char × List Keys)
  | [] => none
  | c :: cs =>
      if isNameStart c then
        match readTags (cs.dropWhile isNameRest) with
        | (tags, []) => some (c :: cs.takeWhile isNameRest, tags)
        | (_, _ :: _) => none
      else none

/-! ### Names -/

/-- The basic type of a name, in any case. -/
def basic? (name : String) : Option Ty :=
  match Text.lowerAscii name with
  | "mixed" => some .mixed
  | "null" => some .null
  | "boolean" | "bool" => some .boolean
  | "int" | "integer" => some .int
  | "float" | "double" | "real" => some .float
  | "string" => some .string
  | "resource" => some .resource
  | "object" => some .object
  | _ => none

/-- The type of a name: a basic type, or else the class of that name. -/
def named? (t : ClassTable) (name : String) : Option Ty :=
  match basic? name with
  | some m => some m
  | none => (t.idOf? name).map fun id => .ofClass id (t.nameOf id)

end ScriptCheck.Descriptor
