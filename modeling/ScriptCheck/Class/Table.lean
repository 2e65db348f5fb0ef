import ScriptCheck.Ty.Signature
import ScriptCheck.Report.Position
import ScriptCheck.Text.Caseless

/-!
The table of classes.

Classes and interfaces are numbered in the order in which their names are first met. The entry
of a class holds the members it declares and its links to the class it extends and the interfaces
it implements; links may form cycles. Names are looked up without regard to case and to leading
separators, and no two entries have the same name in this sense.
-/

namespace ScriptCheck

/-- Who may use a member. -/
inductive Visibility where
  | everyone
  | family
  | owner
  deriving DecidableEq, Repr, Inhabited

/-- The keyword of a visibility. -/
def Visibility.label : Visibility → String
  | everyone => "public"
  | family => "protected"
  | owner => "private"

/-- What constants, properties and methods have in common. The owner is the declaring class. -/
structure Member where
  name : String
  visibility : Visibility := .everyone
  owner : ClassId
  position : Position
  deriving DecidableEq, Repr, Inhabited

/-- A member whose class alone may use it is not inherited. -/
def Member.isShared (m : Member) : Bool :=
  m.visibility != .owner

/-- A class constant. -/
structure Constant extends Member where
  type : Ty
  deriving DecidableEq, Repr, Inhabited

/-- A property. -/
structure Property extends Member where
  type : Ty
  isStatic : Bool := false
  deriving DecidableEq, Repr, Inhabited

/-- A method. -/
structure Method extends Member where
  isAbstract : Bool := false
  isStatic : Bool := false
  isFinal : Bool := false
  signature : Signature := {}
  deriving DecidableEq, Repr, Inhabited

/-- The name every constructor has. -/
def constructorName : String := "__construct"

namespace Method

/-- Whether the method has the given name; case does not count. -/
def isNamed (m : Method) (name : String) : Bool :=
  Text.sameIgnoringCase m.name name

/-- Whether the method is a constructor. -/
def isConstructor (m : Method) : Bool :=
  m.isNamed constructorName

/-- Constructors and methods of the class alone do not reach its subclasses. -/
def isHeritable (m : Method) : Bool :=
  m.isShared && !m.isConstructor

end Method

/-- A class or interface. Until its declaration is read it is a stub with a name only. -/
structure ClassDef where
  name : String
  isInterface : Bool := false
  isAbstract : Bool := false
  isFinal : Bool := false
  isUnchecked : Bool := false
  isDeclared : Bool := false
  superclass : Option ClassId := none
  interfaces : List ClassId := []
  constants : List Constant := []
  properties : List Property := []
  methods : List Method := []
  position : Position
  deriving DecidableEq, Repr, Inhabited

namespace ClassDef

/-- A class of which only the name is known. -/
def stub (name : String) (isInterface : Bool) (position : Position) : ClassDef where
  name := Text.dropSeparators name
  isInterface := isInterface
  position := position

/-- Whether the class can have instances of its own. -/
def hasInstances (decl : ClassDef) : Bool :=
  !decl.isAbstract && !decl.isInterface

/-- The constructor the class declares. -/
def declaredConstructor? (decl : ClassDef) : Option Method :=
  decl.methods.find? (·.isConstructor)

/-- The method of that name the class declares. -/
def declaredMethod? (decl : ClassDef) (name : String) : Option Method :=
  decl.methods.find? (·.isNamed name)

/-- The property of that name the class declares. -/
def declaredProperty? (decl : ClassDef) (name : String) : Option Property :=
  decl.properties.find? (·.name == name)

/-- The constant of that name the class declares. -/
def declaredConstant? (decl : ClassDef) (name : String) : Option Constant :=
  decl.constants.find? (·.name == name)

/-- The direct supertypes: the extended class first, then the interfaces in order. -/
def parents (decl : ClassDef) : List ClassId :=
  decl.superclass.toList ++ decl.interfaces

end ClassDef

/-- The classes known so far; the number of a class is its place in the list. -/
structure ClassTable where
  defs : List ClassDef := []
  deriving DecidableEq, Repr, Inhabited

namespace ClassTable

/-- The number of classes. -/
def size (t : ClassTable) : Nat :=
  t.defs.length

/-- The class of a number. -/
def get? (t : ClassTable) (id : ClassId) : Option ClassDef :=
  t.defs[id]?

/-- The number of the class with a name. -/
def idOf? (t : ClassTable) (name : String) : Option ClassId :=
  t.defs.findIdx? fun decl => Text.nameKey decl.name == Text.nameKey name

/-- The name of a class. -/
def nameOf (t : ClassTable) (id : ClassId) : String :=
  ((t.get? id).map (·.name)).getD ""

/-- The direct supertypes of a class. -/
def parents (t : ClassTable) (id : ClassId) : List ClassId :=
  ((t.get? id).map (·.parents)).getD []

/-- Adds a class, unless one of its name is there; gives the number of the class of that name. -/
def add (t : ClassTable) (decl : ClassDef) : ClassId × ClassTable :=
  match t.idOf? decl.name with
  | some id => (id, t)
  | none => (t.size, ⟨t.defs ++ [decl]⟩)

/-- Changes one class. -/
def modify (t : ClassTable) (id : ClassId) (f : ClassDef → ClassDef) : ClassTable :=
  ⟨t.defs.modify id f⟩

end ClassTable

end ScriptCheck
