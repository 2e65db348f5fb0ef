import ScriptCheck.Class.Table

/-!
Ancestors of classes.

A walk from a class goes depth first through the parent links, the extended class before the
interfaces, and enters every class once. The walk is kept as a tree, a `Lineage`, on which the
questions about ancestors and inherited members are answered.
-/

namespace ScriptCheck

/-- A class with the walks into its parents. -/
inductive Lineage where
  | node (id : ClassId) (parents : List Lineage)
  deriving Inhabited

namespace Lineage

/-- The class at the root. -/
def id : Lineage → ClassId
  | node id _ => id

mutual

/-- The classes of a walk in the order of entry. -/
def classes : Lineage → List ClassId
  | node id parents => id :: classesOf parents

/-- The classes of several walks in the order of entry. -/
def classesOf : List Lineage → List ClassId
  | [] => []
  | l :: ls => l.classes ++ classesOf ls

end

end Lineage

namespace ClassTable

/-- The walks that start at the given classes in turn, and the classes visited after them. A class
visited before is not entered again. The first argument bounds the depth. -/
def walks (t : ClassTable) : Nat → List ClassId → List ClassId → List Lineage × List ClassId
  | 0, visited, _ => ([], visited)
  | depth + 1, visited, starts =>
      starts.foldl (fun (trees, visited) id =>
        if visited.contains id then (trees, visited)
        else
          let (parents, visited) := walks t depth (id :: visited) (t.parents id)
          (trees ++ [.node id parents], visited)) ([], visited)

/-- The walks from the given classes. No path enters a class twice, so it is never longer than
there are classes. -/
def walksFrom (t : ClassTable) (visited starts : List ClassId) : List Lineage :=
  (t.walks (t.size + 1) visited starts).1

/-- The classes reachable from the given ones, those included. -/
def reachable (t : ClassTable) (starts : List ClassId) : List ClassId :=
  Lineage.classesOf (t.walksFrom [] starts)

/-- Whether the first class is the second or derives from it. -/
def isSubclass (t : ClassTable) (id ancestor : ClassId) : Bool :=
  (t.reachable [id]).contains ancestor

/-- Whether exceptions of the class need not be declared: the class or an ancestor of it is
unchecked. -/
def isUnchecked (t : ClassTable) (id : ClassId) : Bool :=
  (t.reachable [id]).any fun c => ((t.get? c).map (·.isUnchecked)).getD false

/-- Whether the parent links lead from the class back to it. -/
def isCyclic (t : ClassTable) (id : ClassId) : Bool :=
  (t.reachable (t.parents id)).contains id

/-- The walks into the parents of a class, which do not come back to it. -/
def ancestry (t : ClassTable) (id : ClassId) : List Lineage :=
  t.walksFrom [id] (t.parents id)

end ClassTable

end ScriptCheck
