import ScriptCheck.Descriptor.Cache
import ScriptCheck.Env

/-!
The classes and functions that are known before any file is read.
-/

namespace ScriptCheck.Builtin

/-- A class known from the start. -/
structure ClassSpec where
  name : String
  isInterface : Bool := false
  superclass : Option String := none
  interfaces : List String := []
  isUnchecked : Bool := false

/-- The exception classes; parents stand before their children. -/
def classes : List ClassSpec :=
  [{ name := "Throwable", isInterface := true },
    { name := "Exception", interfaces := ["Throwable"] },
    { name := "ErrorException", superclass := some "Exception" },
    { name := "RuntimeException", superclass := some "Exception" },
    { name := "LogicException", superclass := some "Exception" },
    { name := "InvalidArgumentException", superclass := some "LogicException" },
    { name := "Error", interfaces := ["Throwable"], isUnchecked := true },
    { name := "TypeError", superclass := some "Error" }]

/-- The classes that declare the methods of exceptions; the others inherit them. -/
def methodOwners : List String :=
  ["Throwable", "Exception", "Error"]

/-- A parameter by its name, descriptor and whether it may be left out. -/
structure ParamSpec where
  type : String
  name : String
  isOptional : Bool := false

/-- A function by the descriptors of its types. -/
structure FunctionSpec where
  name : String
  params : List ParamSpec
  result : String
  isVariadic : Bool := false

/-- The functions known from the start. -/
def functions : List FunctionSpec :=
  [⟨"strlen", [⟨"string", "string", false⟩], "int", false⟩,
    ⟨"count", [⟨"mixed[]", "value", false⟩], "int", false⟩,
    ⟨"is_int", [⟨"mixed", "value", false⟩], "boolean", false⟩,
    ⟨"is_string", [⟨"mixed", "value", false⟩], "boolean", false⟩,
    ⟨"is_null", [⟨"mixed", "value", false⟩], "boolean", false⟩,
    ⟨"isset", [⟨"mixed", "var", false⟩, ⟨"mixed", "vars", true⟩], "boolean", true⟩,
    ⟨"intval", [⟨"mixed", "value", false⟩, ⟨"int", "base", true⟩], "int", false⟩,
    ⟨"printf", [⟨"string", "format", false⟩, ⟨"mixed", "values", true⟩], "int", true⟩,
    ⟨"sprintf", [⟨"string", "format", false⟩, ⟨"mixed", "values", true⟩], "string", true⟩,
    ⟨"implode", [⟨"string", "separator", false⟩, ⟨"mixed[]", "pieces", false⟩], "string", false⟩,
    ⟨"array_keys", [⟨"mixed[]", "array", false⟩], "mixed[int]", false⟩]

/-- Adds a class with its links but without members. -/
def addClass (g : Env) (spec : ClassSpec) : Env :=
  let decl := { ClassDef.stub spec.name spec.isInterface .builtin with
    isDeclared := true
    isUnchecked := spec.isUnchecked
    superclass := spec.superclass.bind g.classes.idOf?
    interfaces := spec.interfaces.filterMap g.classes.idOf? }
  (g.addClass decl).2

/-- A method of the exception classes. -/
def method (owner : ClassId) (name : String) (isAbstract : Bool) (signature : Signature) :
    Method where
  name := name
  owner := owner
  position := .builtin
  isAbstract := isAbstract
  signature := signature

/-- The methods of an exception class. An interface declares them abstract and has no
constructor. -/
def exceptionMethods (owner : ClassId) (isInterface : Bool) : List Method :=
  [method owner "getMessage" isInterface { resultType := some .string },
    method owner "getCode" isInterface { resultType := some .int }]
  ++ if isInterface then []
    else [method owner constructorName false {
      params := [{ name := "message", type := .string, isOptional := true },
        { name := "code", type := .int, isOptional := true }] }]

/-- Gives the class of that name the methods of exceptions. -/
def addMethods (g : Env) (name : String) : Env :=
  match g.classes.idOf? name with
  | none => g
  | some id => g.modifyClass id fun decl =>
      { decl with methods := exceptionMethods id decl.isInterface }

/-- The type of a descriptor, anything if it has none, and the cache after its compilation. -/
def typeOf (cache : TypeCache) (g : ClassTable) (descriptor : String) : Ty × TypeCache :=
  match cache.compile g descriptor with
  | (.ok made, cache) => (made.type, cache)
  | (.error _, cache) => (.mixed, cache)

/-- Compiles the types of parameters in turn. -/
def compileParams (g : ClassTable) (cache : TypeCache) :
    List ParamSpec → List Parameter × TypeCache
  | [] => ([], cache)
  | spec :: specs =>
      let (type, cache) := typeOf cache g spec.type
      let (params, cache) := compileParams g cache specs
      ({ name := spec.name, type := type, isOptional := spec.isOptional } :: params, cache)

/-- Adds a function, compiling its result type and then its parameters. -/
def addFunction (env : Env) (cache : TypeCache) (spec : FunctionSpec) :
    Env × TypeCache :=
  let (result, cache) := typeOf cache env.classes spec.result
  let (params, cache) := compileParams env.classes cache spec.params
  let signature : Signature :=
    { params := params, resultType := some result, isVariadic := spec.isVariadic }
  (env.addFunction ⟨spec.name, signature, .builtin⟩, cache)

/-- The names known from the start, and the cache with the types they mention. -/
def env : Env × TypeCache :=
  let g := methodOwners.foldl addMethods (classes.foldl addClass {})
  let (_, cache) := typeOf {} g.classes "string"
  let (_, cache) := typeOf cache g.classes "int"
  functions.foldl (fun (g, cache) spec => addFunction g cache spec) (g, cache)

end ScriptCheck.Builtin
