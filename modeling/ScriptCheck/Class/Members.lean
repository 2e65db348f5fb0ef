import ScriptCheck.Class.Lineage
import ScriptCheck.Text.Lowercase

/-!
Members a class has through its ancestors.

The class itself comes first, then the class it extends, then its interfaces in order, each with
its own ancestors. Of the constants and properties of one name the first met counts. Of the methods
of one name the first concrete one counts; abstract ones are kept as long as no concrete one has
been met. Constructors and members that only their class may use are not inherited.
-/

namespace ScriptCheck

/-! ### Order by name -/

/-- The order of names: by their lower case, and among equals by the names themselves. -/
def nameLE (a b : String) : Bool :=
  let la := Text.lowercase a
  let lb := Text.lowercase b
  la < lb || (la == lb && a ≤ b)

/-- Puts a member before the first one whose name is not smaller. -/
def insertByName (name : α → String) (m : α) : List α → List α
  | [] => [m]
  | k :: rest => if nameLE (name m) (name k) then m :: k :: rest else k :: insertByName name m rest

/-- The members ordered by name; those of one name keep their order. -/
def sortByName (name : α → String) (members : List α) : List α :=
  members.foldr (insertByName name) []

/-! ### Constants and properties -/

/-- Adds the members whose names are not there yet. -/
def addNew (name : α → String) (known found : List α) : List α :=
  found.foldl (fun known m => if known.any (name · == name m) then known else known ++ [m]) known

mutual

/-- The members of a class and its ancestors, one of each name that the class does not declare;
`own` gives the inheritable members of one class. -/
def Lineage.collect (name : α → String) (own : ClassId → List α) : Lineage → List α
  | .node id parents => collectInto name own (own id) parents

/-- Adds the members of several walks in turn. -/
def Lineage.collectInto (name : α → String) (own : ClassId → List α) (known : List α) :
    List Lineage → List α
  | [] => known
  | l :: ls => collectInto name own (addNew name known (l.collect name own)) ls

end

namespace ClassTable

/-- The inheritable constants a class declares. -/
def sharedConstants (t : ClassTable) (id : ClassId) : List Constant :=
  ((t.get? id).map (·.constants.filter (·.isShared))).getD []

/-- The inheritable properties a class declares. -/
def sharedProperties (t : ClassTable) (id : ClassId) : List Property :=
  ((t.get? id).map (·.properties.filter (·.isShared))).getD []

/-- The inheritable methods a class declares. -/
def heritableMethods (t : ClassTable) (id : ClassId) : List Method :=
  ((t.get? id).map (·.methods.filter (·.isHeritable))).getD []

/-- The constants a class inherits, by name. -/
def inheritedConstants (t : ClassTable) (id : ClassId) : List Constant :=
  let name := fun c : Constant => c.name
  let found := Lineage.collectInto name t.sharedConstants (t.sharedConstants id) (t.ancestry id)
  sortByName name (found.filter (·.owner != id))

/-- The properties a class inherits, by name. -/
def inheritedProperties (t : ClassTable) (id : ClassId) : List Property :=
  let name := fun p : Property => p.name
  let found := Lineage.collectInto name t.sharedProperties (t.sharedProperties id) (t.ancestry id)
  sortByName name (found.filter (·.owner != id))

end ClassTable

/-! ### Methods -/

/-- Methods met on a walk: those that are settled, and abstract ones met before a settled one of
their name. -/
structure MethodPool where
  settled : List Method := []
  pending : List Method := []
  deriving Inhabited

namespace MethodPool

/-- Adds a method, unless one of its name is settled. -/
def add (pool : MethodPool) (m : Method) : MethodPool :=
  if pool.settled.any (·.isNamed m.name) then pool
  else if m.isAbstract then { pool with pending := pool.pending ++ [m] }
  else { pool with settled := pool.settled ++ [m] }

/-- Adds the settled methods of another walk, then its abstract ones. -/
def merge (pool other : MethodPool) : MethodPool :=
  other.pending.foldl add (other.settled.foldl add pool)

end MethodPool

mutual

/-- The methods met on a walk; `own` gives the inheritable methods of one class. -/
def Lineage.methods (own : ClassId → List Method) : Lineage → MethodPool
  | .node id parents => methodsInto own ((own id).foldl MethodPool.add {}) parents

/-- Merges the methods of several walks in turn. -/
def Lineage.methodsInto (own : ClassId → List Method) (pool : MethodPool) :
    List Lineage → MethodPool
  | [] => pool
  | l :: ls => methodsInto own (pool.merge (l.methods own)) ls

end

namespace ClassTable

/-- The methods a class inherits, by name. The methods the class declares, abstract ones too, hide
those of its ancestors. -/
def inheritedMethods (t : ClassTable) (id : ClassId) : List Method :=
  let pool := Lineage.methodsInto t.heritableMethods { settled := t.heritableMethods id }
    (t.ancestry id)
  sortByName (·.name) (pool.settled.filter (·.owner != id) ++ pool.pending)

/-! ### Looking up a member -/

/-- The method that a call of the name on the class means: the class's own, else an inherited one,
concrete ones first. -/
def method? (t : ClassTable) (id : ClassId) (name : String) : Option Method :=
  match (t.get? id).bind (·.declaredMethod? name) with
  | some m => some m
  | none =>
      let inherited := t.inheritedMethods id
      match inherited.find? fun m => m.isNamed name && !m.isAbstract with
      | some m => some m
      | none => inherited.find? (·.isNamed name)

/-- The property of the name: the class's own, else an inherited one. -/
def property? (t : ClassTable) (id : ClassId) (name : String) : Option Property :=
  match (t.get? id).bind (·.declaredProperty? name) with
  | some p => some p
  | none => (t.inheritedProperties id).find? (·.name == name)

/-- The constant of the name: the class's own, else an inherited one. -/
def constant? (t : ClassTable) (id : ClassId) (name : String) : Option Constant :=
  match (t.get? id).bind (·.declaredConstant? name) with
  | some c => some c
  | none => (t.inheritedConstants id).find? (·.name == name)

/-- The nearest constructor along at most the given number of extended classes. -/
def constructorWithin (t : ClassTable) : Nat → ClassId → Option Method
  | 0, _ => none
  | steps + 1, id =>
      match t.get? id with
      | none => none
      | some decl =>
          match decl.declaredConstructor? with
          | some m => some m
          | none => decl.superclass.bind (constructorWithin t steps)

/-- The constructor of a class: its own, else the nearest one along the extended classes. A chain
longer than the number of classes only repeats itself. -/
def constructorOf? (t : ClassTable) (id : ClassId) : Option Method :=
  t.constructorWithin t.size id

/-- The abstract methods that an instantiable class inherits and that nothing implements, one of
each name. -/
def unimplemented (t : ClassTable) (id : ClassId) : List Method :=
  match t.get? id with
  | none => []
  | some decl =>
      if decl.hasInstances then
        let inherited := t.inheritedMethods id
        let isImplemented := fun name =>
          decl.methods.any (fun m => m.isNamed name && !m.isAbstract)
            || inherited.any (fun m => m.isNamed name && !m.isAbstract)
        (inherited.filter (·.isAbstract)).foldl (fun missing m =>
          if isImplemented m.name || missing.any (·.isNamed m.name) then missing
          else missing ++ [m]) []
      else []

end ClassTable

end ScriptCheck
