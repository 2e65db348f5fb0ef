import ScriptCheck.Class.Lineage

/-!
Values of the running program, and which of them a type admits.
-/

namespace ScriptCheck

/-- A key of an array. -/
inductive Key where
  | int (n : Int)
  | string (s : String)
  deriving DecidableEq, Repr, Inhabited

/-- A value. An array is an ordered map; a floating-point number is given by its bits, a resource
by its kind and an object by the name of its class. -/
inductive Value where
  | null
  | boolean (b : Bool)
  | int (n : Int)
  | float (bits : UInt64)
  | string (s : String)
  | resource (kind : String)
  | array (entries : List (Key × Value))
  | object (className : String)
  deriving Inhabited

namespace Value

/-- Sets the value of a key: at its place if it is there, at the end if it is not. -/
def setEntry (entries : List (Key × Value)) (key : Key) (value : Value) :
    List (Key × Value) :=
  if entries.any (·.1 == key) then
    entries.map fun entry => if entry.1 == key then (key, value) else entry
  else entries ++ [(key, value)]

/-- The array with the given entries. A repeated key keeps its first place and its last value. -/
def ofEntries (entries : List (Key × Value)) : Value :=
  .array (entries.foldl (fun known entry => setEntry known entry.1 entry.2) [])

/-- The array with the given values under the keys 0, 1, 2 and so on. -/
def ofList (values : List Value) : Value :=
  .array (values.zipIdx.map fun entry => (.int entry.2, entry.1))

end Value

/-- Whether a container with the keys may have the key. -/
def Keys.admits : Keys → Key → Bool
  | .either, _ => true
  | .int, .int _ => true
  | .string, .string _ => true
  | _, _ => false

/-- Whether a type admits a value. -/
def Ty.admits (t : ClassTable) : Ty → Value → Bool
  | m, .null => m.isNullable
  | .mixed, _ => true
  | .boolean, .boolean _ => true
  | .int, .int _ => true
  | .float, .float _ => true
  | .string, .string _ => true
  | .resource, .resource _ => true
  | .object, .object _ => true
  | .ofClass id _, .object name => match t.idOf? name with
    | some actual => t.isSubclass actual id
    | none => false
  | .container key element, .array entries =>
      entries.all fun entry => key.admits entry.1 && admits t element entry.2
  | _, _ => false

end ScriptCheck
