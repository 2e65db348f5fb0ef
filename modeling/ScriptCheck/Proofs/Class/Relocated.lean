import ScriptCheck.Class.Members
import ScriptCheck.Proofs.Class.Ancestors

/-!
Where classes and their members are declared does not matter to look them up.

`ClassTable.relocate` moves the positions of a table. Names and parent links stay, and so do the
walks through the table (`walks_relocate`); what is looked up in the table with other positions is
what is looked up in the table, with its position moved (`method?_relocate`, `property?_relocate`,
`constant?_relocate`, `constructorOf?_relocate`, `unimplemented_relocate`).
-/

namespace ScriptCheck

/-! ### Entries with other positions -/

/-- A constant with its position moved. -/
def Constant.relocate (φ : Position → Position) (c : Constant) : Constant :=
  { c with position := φ c.position }

/-- A property with its position moved. -/
def Property.relocate (φ : Position → Position) (p : Property) : Property :=
  { p with position := φ p.position }

/-- A method with its position moved. -/
def Method.relocate (φ : Position → Position) (m : Method) : Method :=
  { m with position := φ m.position }

/-- A class with its position and those of its members moved. -/
def ClassDef.relocate (φ : Position → Position) (decl : ClassDef) : ClassDef := { decl with
  constants := decl.constants.map (.relocate φ)
  properties := decl.properties.map (.relocate φ)
  methods := decl.methods.map (.relocate φ)
  position := φ decl.position }

/-- A table with its positions moved. -/
def ClassTable.relocate (φ : Position → Position) (t : ClassTable) : ClassTable :=
  ⟨t.defs.map (.relocate φ)⟩

variable (φ : Position → Position)

lemma Method.isNamed_relocate (m : Method) (name : String) :
    (m.relocate φ).isNamed name = m.isNamed name := rfl

lemma find?_map_of {α β : Type} {g : α → β} {p : α → Bool} {q : β → Bool}
    (h : ∀ a, q (g a) = p a) (l : List α) : (l.map g).find? q = (l.find? p).map g := by
  rw [List.find?_map]
  congr 2
  funext a
  exact h a

namespace ClassDef

variable (decl : ClassDef) (name : String)

lemma declaredConstant?_relocate :
    (decl.relocate φ).declaredConstant? name = (decl.declaredConstant? name).map (.relocate φ) :=
  find?_map_of (fun _ => rfl) decl.constants

lemma declaredProperty?_relocate :
    (decl.relocate φ).declaredProperty? name = (decl.declaredProperty? name).map (.relocate φ) :=
  find?_map_of (fun _ => rfl) decl.properties

lemma declaredMethod?_relocate :
    (decl.relocate φ).declaredMethod? name = (decl.declaredMethod? name).map (.relocate φ) :=
  find?_map_of (fun _ => rfl) decl.methods

lemma declaredConstructor?_relocate :
    (decl.relocate φ).declaredConstructor? = decl.declaredConstructor?.map (.relocate φ) :=
  find?_map_of (fun _ => rfl) decl.methods

end ClassDef

/-! ### Members collected on a walk -/

section Collect

variable {α : Type} (name : α → String) (g : α → α)

lemma insertByName_map (hname : ∀ a, name (g a) = name a) (a : α) (l : List α) :
    insertByName name (g a) (l.map g) = (insertByName name a l).map g := by
  induction l with
  | nil => rfl
  | cons b l ih =>
      rw [List.map_cons, insertByName, insertByName, hname, hname]
      split
      · rfl
      · rw [ih, List.map_cons]

lemma sortByName_map (hname : ∀ a, name (g a) = name a) (l : List α) :
    sortByName name (l.map g) = (sortByName name l).map g := by
  induction l with
  | nil => rfl
  | cons a l ih =>
      show insertByName name (g a) (sortByName name (l.map g)) = _
      rw [ih, insertByName_map name g hname]
      rfl

lemma addNew_map (hname : ∀ a, name (g a) = name a) (known found : List α) :
    addNew name (known.map g) (found.map g) = (addNew name known found).map g := by
  induction found generalizing known with
  | nil => rfl
  | cons a found ih =>
      simp only [addNew, List.map_cons, List.foldl_cons, List.any_map, Function.comp_def,
        hname] at ih ⊢
      split
      · exact ih known
      · simpa using ih (known ++ [a])

mutual

lemma Lineage.collect_map (hname : ∀ a, name (g a) = name a) {own own' : ClassId → List α}
    (hown : ∀ id, own' id = (own id).map g) :
    ∀ l : Lineage, l.collect name own' = (l.collect name own).map g
  | .node id parents => by
      rw [Lineage.collect, Lineage.collect, hown]
      exact Lineage.collectInto_map hname hown (own id) parents

lemma Lineage.collectInto_map (hname : ∀ a, name (g a) = name a) {own own' : ClassId → List α}
    (hown : ∀ id, own' id = (own id).map g) (known : List α) :
    ∀ ls : List Lineage, Lineage.collectInto name own' (known.map g) ls =
      (Lineage.collectInto name own known ls).map g
  | [] => by rw [Lineage.collectInto, Lineage.collectInto]
  | l :: ls => by
      rw [Lineage.collectInto, Lineage.collectInto, Lineage.collect_map hname hown l,
        addNew_map name g hname]
      exact Lineage.collectInto_map hname hown _ ls

end

end Collect

/-! ### Methods met on a walk -/

/-- Methods met on a walk, without their positions. -/
def MethodPool.relocate (φ : Position → Position) (pool : MethodPool) : MethodPool :=
  ⟨pool.settled.map (Method.relocate φ), pool.pending.map (Method.relocate φ)⟩

namespace MethodPool

lemma add_relocate (pool : MethodPool) (m : Method) :
    (pool.relocate φ).add (m.relocate φ) = (pool.add m).relocate φ := by
  have hany : (pool.relocate φ).settled.any (·.isNamed (m.relocate φ).name) =
      pool.settled.any (·.isNamed m.name) := List.any_map
  rw [MethodPool.add, MethodPool.add, hany]
  split
  · rfl
  · show (if m.isAbstract = true then _ else _) = _
    split <;> simp [MethodPool.relocate]

lemma foldl_add_relocate (methods : List Method) (pool : MethodPool) :
    (methods.map (Method.relocate φ)).foldl MethodPool.add (pool.relocate φ) =
      (methods.foldl MethodPool.add pool).relocate φ := by
  induction methods generalizing pool with
  | nil => rfl
  | cons m methods ih => rw [List.map_cons, List.foldl_cons, add_relocate, ih, List.foldl_cons]

lemma merge_relocate (pool other : MethodPool) :
    (pool.relocate φ).merge (other.relocate φ) = (pool.merge other).relocate φ := by
  rw [merge, merge, ← foldl_add_relocate, ← foldl_add_relocate]
  rfl

end MethodPool

mutual

lemma Lineage.methods_relocate {own own' : ClassId → List Method}
    (hown : ∀ id, own' id = (own id).map (Method.relocate φ)) :
    ∀ l : Lineage, l.methods own' = (l.methods own).relocate φ
  | .node id parents => by
      rw [Lineage.methods, Lineage.methods, hown]
      exact (congrArg (Lineage.methodsInto own' · parents)
        (MethodPool.foldl_add_relocate φ (own id) {})).trans
        (Lineage.methodsInto_relocate hown _ parents)

lemma Lineage.methodsInto_relocate {own own' : ClassId → List Method}
    (hown : ∀ id, own' id = (own id).map (Method.relocate φ)) (pool : MethodPool) :
    ∀ ls : List Lineage, Lineage.methodsInto own' (pool.relocate φ) ls =
      (Lineage.methodsInto own pool ls).relocate φ
  | [] => by rw [Lineage.methodsInto, Lineage.methodsInto]
  | l :: ls => by
      rw [Lineage.methodsInto, Lineage.methodsInto, Lineage.methods_relocate hown l,
        MethodPool.merge_relocate]
      exact Lineage.methodsInto_relocate hown _ ls

end

namespace ClassTable

variable (t : ClassTable)

/-! ### Names and links -/

lemma get?_relocate (id : ClassId) : (t.relocate φ).get? id = (t.get? id).map (ClassDef.relocate φ) := by
  simp [relocate, get?]

lemma size_relocate : (t.relocate φ).size = t.size := by
  simp [relocate, size]

lemma idOf?_relocate (name : String) : (t.relocate φ).idOf? name = t.idOf? name := by
  rw [idOf?, idOf?, relocate, List.findIdx?_map]
  rfl

lemma nameOf_relocate (id : ClassId) : (t.relocate φ).nameOf id = t.nameOf id := by
  rw [nameOf, nameOf, get?_relocate, Option.map_map]
  rfl

lemma parents_relocate (id : ClassId) : (t.relocate φ).parents id = t.parents id := by
  rw [parents, parents, get?_relocate, Option.map_map]
  rfl

lemma walks_relocate (depth : Nat) (visited starts : List ClassId) :
    (t.relocate φ).walks depth visited starts = t.walks depth visited starts := by
  induction depth generalizing visited starts with
  | zero => rfl
  | succ depth ih =>
      have henter : (t.relocate φ).enter depth = t.enter depth := by
        funext found id
        simp only [enter, ih, parents_relocate]
      rw [walks_succ, walks_succ, henter]

lemma reachable_relocate (starts : List ClassId) :
    (t.relocate φ).reachable starts = t.reachable starts := by
  rw [reachable, reachable, walksFrom, walksFrom, size_relocate, walks_relocate]

lemma isSubclass_relocate (id ancestor : ClassId) :
    (t.relocate φ).isSubclass id ancestor = t.isSubclass id ancestor := by
  rw [isSubclass, isSubclass, reachable_relocate]

lemma isUnchecked_relocate (id : ClassId) : (t.relocate φ).isUnchecked id = t.isUnchecked id := by
  simp only [isUnchecked, reachable_relocate, get?_relocate, Option.map_map]
  rfl

lemma isCyclic_relocate (id : ClassId) : (t.relocate φ).isCyclic id = t.isCyclic id := by
  rw [isCyclic, isCyclic, parents_relocate, reachable_relocate]

lemma ancestry_relocate (id : ClassId) : (t.relocate φ).ancestry id = t.ancestry id := by
  rw [ancestry, ancestry, walksFrom, walksFrom, parents_relocate, size_relocate, walks_relocate]

/-! ### Inherited members -/

/-- The members of a class, as far as they pass a test, keep their order. -/
lemma getD_map_relocate {α : Type} {f : ClassDef → List α} {g : α → α}
    (h : ∀ decl, f (decl.relocate φ) = (f decl).map g) (id : ClassId) :
    (((t.relocate φ).get? id).map f).getD [] = (((t.get? id).map f).getD []).map g := by
  rw [get?_relocate]
  cases t.get? id with
  | none => rfl
  | some decl => exact h decl

lemma sharedConstants_relocate (id : ClassId) :
    (t.relocate φ).sharedConstants id = (t.sharedConstants id).map (Constant.relocate φ) :=
  t.getD_map_relocate φ (fun _ => List.filter_map) id

lemma sharedProperties_relocate (id : ClassId) :
    (t.relocate φ).sharedProperties id = (t.sharedProperties id).map (Property.relocate φ) :=
  t.getD_map_relocate φ (fun _ => List.filter_map) id

lemma heritableMethods_relocate (id : ClassId) :
    (t.relocate φ).heritableMethods id = (t.heritableMethods id).map (Method.relocate φ) :=
  t.getD_map_relocate φ (fun _ => List.filter_map) id

lemma inheritedConstants_relocate (id : ClassId) :
    (t.relocate φ).inheritedConstants id = (t.inheritedConstants id).map (Constant.relocate φ) := by
  simp only [inheritedConstants, sharedConstants_relocate, ancestry_relocate]
  rw [Lineage.collectInto_map (fun c => c.name) (Constant.relocate φ) (fun _ => rfl)
    (t.sharedConstants_relocate φ), List.filter_map,
    sortByName_map (fun c => c.name) (Constant.relocate φ) fun _ => rfl]
  rfl

lemma inheritedProperties_relocate (id : ClassId) :
    (t.relocate φ).inheritedProperties id = (t.inheritedProperties id).map (Property.relocate φ) := by
  simp only [inheritedProperties, sharedProperties_relocate, ancestry_relocate]
  rw [Lineage.collectInto_map (fun p => p.name) (Property.relocate φ) (fun _ => rfl)
    (t.sharedProperties_relocate φ), List.filter_map,
    sortByName_map (fun p => p.name) (Property.relocate φ) fun _ => rfl]
  rfl

lemma inheritedMethods_relocate (id : ClassId) :
    (t.relocate φ).inheritedMethods id = (t.inheritedMethods id).map (Method.relocate φ) := by
  have hpool : ({ settled := (t.relocate φ).heritableMethods id } : MethodPool) =
      MethodPool.relocate φ { settled := t.heritableMethods id } := by
    rw [heritableMethods_relocate]
    rfl
  simp only [inheritedMethods, ancestry_relocate]
  rw [hpool, Lineage.methodsInto_relocate φ (t.heritableMethods_relocate φ), MethodPool.relocate,
    List.filter_map, ← List.map_append,
    sortByName_map (fun m => m.name) (Method.relocate φ) fun _ => rfl]
  rfl

/-! ### Looking up a member -/

/-- The member that a class declares. -/
lemma bind_get?_relocate {α : Type} {f : ClassDef → Option α} {g : α → α}
    (h : ∀ decl, f (decl.relocate φ) = (f decl).map g) (id : ClassId) :
    ((t.relocate φ).get? id).bind f = ((t.get? id).bind f).map g := by
  rw [get?_relocate]
  cases t.get? id with
  | none => rfl
  | some decl => exact h decl

lemma method?_relocate (id : ClassId) (name : String) :
    (t.relocate φ).method? id name = (t.method? id name).map (Method.relocate φ) := by
  rw [method?, method?, t.bind_get?_relocate φ fun decl => decl.declaredMethod?_relocate φ name]
  cases (t.get? id).bind (·.declaredMethod? name) with
  | some m => rfl
  | none =>
      simp only [Option.map_none, inheritedMethods_relocate]
      rw [find?_map_of (p := fun m => m.isNamed name && !m.isAbstract) fun _ => rfl]
      cases (t.inheritedMethods id).find? fun m => m.isNamed name && !m.isAbstract with
      | some m => rfl
      | none => exact find?_map_of (fun _ => rfl) _

lemma property?_relocate (id : ClassId) (name : String) :
    (t.relocate φ).property? id name = (t.property? id name).map (Property.relocate φ) := by
  rw [property?, property?,
    t.bind_get?_relocate φ fun decl => decl.declaredProperty?_relocate φ name]
  cases (t.get? id).bind (·.declaredProperty? name) with
  | some p => rfl
  | none =>
      simp only [Option.map_none, inheritedProperties_relocate]
      exact find?_map_of (fun _ => rfl) _

lemma constant?_relocate (id : ClassId) (name : String) :
    (t.relocate φ).constant? id name = (t.constant? id name).map (Constant.relocate φ) := by
  rw [constant?, constant?,
    t.bind_get?_relocate φ fun decl => decl.declaredConstant?_relocate φ name]
  cases (t.get? id).bind (·.declaredConstant? name) with
  | some c => rfl
  | none =>
      simp only [Option.map_none, inheritedConstants_relocate]
      exact find?_map_of (fun _ => rfl) _

lemma constructorWithin_relocate (steps : Nat) (id : ClassId) :
    (t.relocate φ).constructorWithin steps id =
      (t.constructorWithin steps id).map (Method.relocate φ) := by
  induction steps generalizing id with
  | zero => rfl
  | succ steps ih =>
      rw [constructorWithin, constructorWithin, get?_relocate]
      cases t.get? id with
      | none => rfl
      | some decl =>
          have hsuper : (decl.relocate φ).superclass = decl.superclass := rfl
          simp only [Option.map_some, decl.declaredConstructor?_relocate, hsuper]
          cases decl.declaredConstructor? with
          | some m => rfl
          | none =>
              cases decl.superclass with
              | none => rfl
              | some parent => exact ih parent

lemma constructorOf?_relocate (id : ClassId) :
    (t.relocate φ).constructorOf? id = (t.constructorOf? id).map (Method.relocate φ) := by
  rw [constructorOf?, constructorOf?, size_relocate, constructorWithin_relocate]

/-- The missing methods of a list, from those found missing so far. -/
lemma foldl_missing_relocate (isImplemented : String → Bool) {found : List Method} (missing : List Method) :
    (found.map (Method.relocate φ)).foldl (fun missing m =>
        if isImplemented m.name || missing.any (·.isNamed m.name) then missing
        else missing ++ [m]) (missing.map (Method.relocate φ)) =
      (found.foldl (fun missing m =>
        if isImplemented m.name || missing.any (·.isNamed m.name) then missing
        else missing ++ [m]) missing).map (Method.relocate φ) := by
  induction found generalizing missing with
  | nil => rfl
  | cons m found ih =>
      have hname : (m.relocate φ).name = m.name := rfl
      simp only [List.map_cons, List.foldl_cons, List.any_map, Function.comp_def,
        Method.isNamed_relocate, hname] at ih ⊢
      split
      · exact ih missing
      · simpa using ih (missing ++ [m])

lemma unimplemented_relocate (id : ClassId) :
    (t.relocate φ).unimplemented id = (t.unimplemented id).map (Method.relocate φ) := by
  rw [unimplemented, unimplemented, get?_relocate]
  cases t.get? id with
  | none => rfl
  | some decl =>
      have hinstances : (decl.relocate φ).hasInstances = decl.hasInstances := rfl
      have hmethods : (decl.relocate φ).methods = decl.methods.map (Method.relocate φ) := rfl
      have habstract : ((t.inheritedMethods id).map (Method.relocate φ)).filter (·.isAbstract) =
          ((t.inheritedMethods id).filter (·.isAbstract)).map (Method.relocate φ) := List.filter_map
      have hany : ∀ (l : List Method) (name : String),
          ((l.map (Method.relocate φ)).any fun m => m.isNamed name && !m.isAbstract) =
            l.any fun m => m.isNamed name && !m.isAbstract := fun _ _ => List.any_map
      simp only [Option.map_some, hinstances, hmethods, inheritedMethods_relocate, habstract, hany]
      split
      · exact foldl_missing_relocate φ (fun name =>
          decl.methods.any (fun m => m.isNamed name && !m.isAbstract)
            || (t.inheritedMethods id).any (fun m => m.isNamed name && !m.isAbstract)) []
      · rfl

end ClassTable

end ScriptCheck
