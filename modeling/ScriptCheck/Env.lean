import ScriptCheck.Class.Table

/-!
What is known by name everywhere: classes, functions and constants.

Functions are looked up without regard to case and to leading separators. The first declaration of
a name stays.
-/

namespace ScriptCheck

/-- A declared function. -/
structure FunctionDecl where
  name : String
  signature : Signature
  position : Position
  deriving DecidableEq, Repr, Inhabited

/-- The classes, functions and constants known so far. -/
structure Env where
  classes : ClassTable := {}
  functions : List (String × FunctionDecl) := []
  constants : List (String × Ty) := []
  deriving DecidableEq, Repr, Inhabited

namespace Env

/-- The function of a name. -/
def function? (env : Env) (name : String) : Option FunctionDecl :=
  env.functions.lookup (Text.nameKey name)

/-- Declares a function, unless its name is taken. -/
def addFunction (env : Env) (entry : FunctionDecl) : Env :=
  if (env.function? entry.name).isSome then env
  else { env with functions := env.functions ++ [(Text.nameKey entry.name, entry)] }

/-- The type of the constant of a name. -/
def constant? (env : Env) (name : String) : Option Ty :=
  env.constants.lookup (Text.dropSeparators name)

/-- Whether a constant is declared under just this spelling. -/
def hasConstant (env : Env) (name : String) : Bool :=
  (env.constants.lookup name).isSome

/-- Declares a constant, unless its spelling is taken. -/
def addConstant (env : Env) (name : String) (type : Ty) : Env :=
  if env.hasConstant name then env
  else { env with constants := env.constants ++ [(name, type)] }

/-- Adds a class; gives its number. -/
def addClass (env : Env) (decl : ClassDef) : ClassId × Env :=
  let (id, classes) := env.classes.add decl
  (id, { env with classes := classes })

/-- Changes a class. -/
def modifyClass (env : Env) (id : ClassId) (f : ClassDef → ClassDef) : Env :=
  { env with classes := env.classes.modify id f }

end Env

end ScriptCheck
