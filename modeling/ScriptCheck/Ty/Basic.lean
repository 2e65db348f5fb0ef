/-!
Types of values.

The language has eight basic types, a type for every class, and containers. A container admits
integer keys, string keys or both, and all its elements have one type. A type is written as a
descriptor: the name of its innermost element, then one index tag per container, the outermost
first.
-/

namespace ScriptCheck

/-- The number of a class: its place in the class table. -/
abbrev ClassId := Nat

/-- The keys a container admits. -/
inductive Keys where
  | int
  | string
  | either
  deriving DecidableEq, Repr, Inhabited

namespace Keys

/-- The index tag of the keys. -/
def tag : Keys → String
  | int => "[int]"
  | string => "[string]"
  | either => "[]"

/-- The name of the type of the keys, empty if both kinds are admitted. -/
def keyName : Keys → String
  | int => "int"
  | string => "string"
  | either => ""

end Keys

/-- A type. A class type keeps the name under which its class is stored. -/
inductive Ty where
  | mixed
  | null
  | boolean
  | int
  | float
  | string
  | resource
  | object
  | ofClass (id : ClassId) (name : String)
  | container (key : Keys) (element : Ty)
  deriving DecidableEq, Repr, Inhabited

/-- Splits a descriptor before its first index tag: the base and the tags. -/
def splitTags (descriptor : List Char) : List Char × List Char :=
  descriptor.span (· != '[')

/-- Adds a tag as the new outermost index of a descriptor. -/
def insertTag (descriptor tag : List Char) : List Char :=
  let (base, tags) := splitTags descriptor
  base ++ tag ++ tags

namespace Ty

/-- The characters of the descriptor of a type. -/
def chars : Ty → List Char
  | mixed => "mixed".toList
  | null => "null".toList
  | boolean => "boolean".toList
  | int => "int".toList
  | float => "float".toList
  | string => "string".toList
  | resource => "resource".toList
  | object => "object".toList
  | ofClass _ name => name.toList
  | container key element => insertTag element.chars key.tag.toList

/-- The descriptor of a type. -/
def display (type : Ty) : String :=
  String.ofList type.chars

/-- The keys and the element type of a container. -/
def container? : Ty → Option (Keys × Ty)
  | container key element => some (key, element)
  | _ => none

/-- The class of a class type. -/
def class? : Ty → Option ClassId
  | ofClass id _ => some id
  | _ => none

/-- Whether the type admits the null value: all but booleans and numbers do. -/
def isNullable : Ty → Bool
  | boolean | int | float => false
  | _ => true

/-- Whether the type admits everything. -/
def isMixed : Ty → Bool
  | mixed => true
  | _ => false

/-- Whether the type is that of the null value. -/
def isNull : Ty → Bool
  | null => true
  | _ => false

/-- Whether the type is one of numbers. -/
def isNumeric : Ty → Bool
  | int | float => true
  | _ => false

end Ty

end ScriptCheck
