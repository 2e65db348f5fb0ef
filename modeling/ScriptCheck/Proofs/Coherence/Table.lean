import ScriptCheck.NatSet
import ScriptCheck.Proofs.Class.Names
import ScriptCheck.Proofs.Class.Unimplemented

/-!
Coherent tables of classes.

A table is coherent if its classes have different names, every class number in it is that of a class
of the table, and every class has its members to itself: they name it as their owner, and no two of
one sort have the same name.

* `ClassTable.Coherent.addStub`, `ClassTable.Coherent.modify`: adding a class without members keeps
  a table coherent, and so does changing a class into another coherent one of its name.
* `ClassTable.Coherent.method?` and the lemmas after it: what is found in a coherent table, through
  however many ancestors, has only classes of the table in its types.
* `ClassTable.Coherent.idOf?_nameOf`: every class is found by its name.
-/

namespace ScriptCheck

/-! ### Class numbers in types and signatures -/

/-- The classes in the type are among the first so many. -/
def Ty.Within (n : Nat) : Ty → Prop
  | .ofClass id _ => id < n
  | .container _ element => element.Within n
  | _ => True

/-- The classes in the signature, the exceptions too, are among the first so many. -/
structure Signature.Within (n : Nat) (s : Signature) : Prop where
  params : ∀ p ∈ s.params, p.type.Within n
  result : ∀ type ∈ s.resultType, type.Within n
  throws : ∀ id ∈ s.throws, id < n

/-- The classes in the set are among the first so many. -/
def NatSet.Within (n : Nat) (s : NatSet) : Prop :=
  ∀ id ∈ s, id < n

variable {n k : Nat}

instance Ty.decidableWithin (n : Nat) : (type : Ty) → Decidable (type.Within n)
  | .ofClass id _ => inferInstanceAs (Decidable (id < n))
  | .container _ element => Ty.decidableWithin n element
  | .mixed | .null | .boolean | .int | .float | .string | .resource | .object => .isTrue trivial

instance (n : Nat) (s : Signature) : Decidable (s.Within n) :=
  decidable_of_iff ((∀ p ∈ s.params, p.type.Within n) ∧ (∀ type ∈ s.resultType, type.Within n) ∧
      ∀ id ∈ s.throws, id < n)
    ⟨fun h => ⟨h.1, h.2.1, h.2.2⟩, fun h => ⟨h.params, h.result, h.throws⟩⟩

lemma Ty.Within.mono {type : Ty} (h : type.Within n) (hn : n ≤ k) : type.Within k := by
  induction type with
  | ofClass id name => exact Nat.lt_of_lt_of_le h hn
  | container key element ih => exact ih h
  | _ => trivial

lemma Signature.Within.empty : Signature.Within n {} :=
  ⟨List.forall_mem_nil _, by rintro _ ⟨⟩, List.forall_mem_nil _⟩

lemma Signature.Within.mono {s : Signature} (h : s.Within n) (hn : n ≤ k) : s.Within k where
  params p hp := (h.params p hp).mono hn
  result type htype := (h.result type htype).mono hn
  throws id hid := Nat.lt_of_lt_of_le (h.throws id hid) hn

namespace NatSet.Within

variable {s t : NatSet}

lemma mono (h : s.Within n) (hn : n ≤ k) : s.Within k :=
  fun id hid => Nat.lt_of_lt_of_le (h id hid) hn

lemma empty : (∅ : NatSet).Within n := by
  intro id hid
  exact absurd hid (NatSet.not_mem_empty id)

lemma union (hs : s.Within n) (ht : t.Within n) : (s ∪ t).Within n := by
  intro id hid
  rcases NatSet.mem_union.mp hid with hid | hid
  · exact hs id hid
  · exact ht id hid

lemma ofList {ids : List Nat} (h : ∀ id ∈ ids, id < n) : (NatSet.ofList ids).Within n :=
  fun id hid => h id (NatSet.mem_ofList.mp hid)

lemma filter (p : Nat → Bool) (hs : s.Within n) : (s.filter p).Within n :=
  fun id hid => hs id (NatSet.mem_filter.mp hid).1

end NatSet.Within

/-! ### Coherent classes and tables -/

/-- A class that fits into a table of so many classes under its number. -/
structure ClassDef.Coherent (n : Nat) (id : ClassId) (decl : ClassDef) : Prop where
  parents : ∀ parent ∈ decl.parents, parent < n
  constants : ∀ c ∈ decl.constants, c.owner = id ∧ c.type.Within n
  properties : ∀ p ∈ decl.properties, p.owner = id ∧ p.type.Within n
  methods : ∀ m ∈ decl.methods, m.owner = id ∧ m.signature.Within n
  constantNames : (decl.constants.map (·.name)).Nodup
  propertyNames : (decl.properties.map (·.name)).Nodup
  methodNames : (decl.methods.map fun m => Text.lowerAscii m.name).Nodup

/-- A table whose classes have different names, and fit into it. -/
structure ClassTable.Coherent (t : ClassTable) : Prop where
  names : t.keys.Nodup
  defs : ∀ id decl, t.get? id = some decl → decl.Coherent t.size id

instance (n : Nat) (id : ClassId) (decl : ClassDef) : Decidable (decl.Coherent n id) :=
  decidable_of_iff (((∀ parent ∈ decl.parents, parent < n) ∧
      (∀ c ∈ decl.constants, c.owner = id ∧ c.type.Within n) ∧
      (∀ p ∈ decl.properties, p.owner = id ∧ p.type.Within n) ∧
      ∀ m ∈ decl.methods, m.owner = id ∧ m.signature.Within n) ∧
      (decl.constants.map (·.name)).Nodup ∧ (decl.properties.map (·.name)).Nodup ∧
      (decl.methods.map fun m => Text.lowerAscii m.name).Nodup) <| by
    constructor
    · rintro ⟨⟨hparents, hconstants, hproperties, hmethods⟩, hnames⟩
      exact ⟨hparents, hconstants, hproperties, hmethods, hnames.1, hnames.2.1, hnames.2.2⟩
    · intro h
      exact ⟨⟨h.parents, h.constants, h.properties, h.methods⟩,
        h.constantNames, h.propertyNames, h.methodNames⟩

instance (t : ClassTable) : Decidable t.Coherent :=
  decidable_of_iff (t.keys.Nodup ∧
      ∀ id : Fin t.defs.length, (t.defs.get id).Coherent t.size id.val) <| by
    constructor
    · intro h
      refine ⟨h.1, fun id decl hdecl => ?_⟩
      obtain ⟨hid, rfl⟩ := List.getElem?_eq_some_iff.mp hdecl
      exact h.2 ⟨id, hid⟩
    · intro h
      exact ⟨h.names, fun id => h.defs id.val _ (List.getElem?_eq_getElem id.isLt)⟩

lemma forall_mem_concat {α : Type} {P : α → Prop} {l : List α} {a : α} (h : ∀ b ∈ l, P b)
    (ha : P a) : ∀ b ∈ l ++ [a], P b :=
  List.forall_mem_append.mpr ⟨h, List.forall_mem_singleton.mpr ha⟩

namespace ClassDef.Coherent

variable {id : ClassId} {decl : ClassDef}

lemma mono (h : decl.Coherent n id) (hn : n ≤ k) : decl.Coherent k id :=
  { h with
    parents := fun parent hparent => Nat.lt_of_lt_of_le (h.parents parent hparent) hn
    constants := fun c hc => (h.constants c hc).imp_right (·.mono hn)
    properties := fun p hp => (h.properties p hp).imp_right (·.mono hn)
    methods := fun m hm => (h.methods m hm).imp_right (·.mono hn) }

lemma stub (name : String) (isInterface : Bool) (p : Position) :
    (ClassDef.stub name isInterface p).Coherent n id where
  parents := List.forall_mem_nil _
  constants := List.forall_mem_nil _
  properties := List.forall_mem_nil _
  methods := List.forall_mem_nil _
  constantNames := List.nodup_nil
  propertyNames := List.nodup_nil
  methodNames := List.nodup_nil

/-- If a search for the name finds nothing, the names stay different. -/
lemma nodup_map_append {α : Type} {key : α → String} {isNamed : α → Bool} {members : List α} {m : α}
    (h : (members.map key).Nodup) (hfree : (members.find? isNamed).isSome = false)
    (hnamed : ∀ a, key a = key m → isNamed a = true) :
    ((members ++ [m]).map key).Nodup := by
  rw [Option.isSome_eq_false_iff, Option.isNone_iff_eq_none, List.find?_eq_none] at hfree
  rw [List.map_append, List.nodup_append]
  refine ⟨h, List.nodup_singleton _, fun a ha b hb heq => ?_⟩
  obtain ⟨a', ha', rfl⟩ := List.mem_map.mp ha
  rw [List.map_singleton, List.mem_singleton] at hb
  exact hfree a' ha' (hnamed a' (heq.trans hb))

lemma addConstant (h : decl.Coherent n id) {c : Constant} (howner : c.owner = id)
    (htype : c.type.Within n) (hnew : (decl.declaredConstant? c.name).isSome = false) :
    ({ decl with constants := decl.constants ++ [c] } : ClassDef).Coherent n id :=
  { h with
    constants := forall_mem_concat h.constants ⟨howner, htype⟩
    constantNames := nodup_map_append h.constantNames hnew fun _ heq => beq_iff_eq.mpr heq }

lemma addProperty (h : decl.Coherent n id) {p : Property} (howner : p.owner = id)
    (htype : p.type.Within n) (hnew : (decl.declaredProperty? p.name).isSome = false) :
    ({ decl with properties := decl.properties ++ [p] } : ClassDef).Coherent n id :=
  { h with
    properties := forall_mem_concat h.properties ⟨howner, htype⟩
    propertyNames := nodup_map_append h.propertyNames hnew fun _ heq => beq_iff_eq.mpr heq }

lemma addMethod (h : decl.Coherent n id) {m : Method} (howner : m.owner = id)
    (hsignature : m.signature.Within n) (hnew : (decl.declaredMethod? m.name).isSome = false) :
    ({ decl with methods := decl.methods ++ [m] } : ClassDef).Coherent n id :=
  { h with
    methods := forall_mem_concat h.methods ⟨howner, hsignature⟩
    methodNames := nodup_map_append h.methodNames hnew fun _ heq => beq_iff_eq.mpr heq }

end ClassDef.Coherent

/-! ### Members of ancestors -/

lemma mem_addNew {α : Type} {name : α → String} {m : α} {found known : List α}
    (h : m ∈ addNew name known found) : m ∈ known ∨ m ∈ found := by
  induction found generalizing known with
  | nil => exact .inl h
  | cons a found ih =>
      rw [addNew, List.foldl_cons] at h
      rcases ih h with h | h
      · split at h
        · exact .inl h
        · rcases List.mem_append.mp h with h | h
          · exact .inl h
          · exact .inr (List.mem_cons.mpr (.inl (List.mem_singleton.mp h)))
      · exact .inr (List.mem_cons_of_mem a h)

mutual

lemma Lineage.exists_of_mem_collect {α : Type} {name : α → String} {own : ClassId → List α}
    {m : α} : ∀ l : Lineage, m ∈ l.collect name own → ∃ id, m ∈ own id
  | .node id parents => by
      intro h
      rw [Lineage.collect] at h
      rcases Lineage.mem_or_exists_of_mem_collectInto parents h with h | h
      · exact ⟨id, h⟩
      · exact h

/-- What a walk collects is known already, or some class has it. -/
lemma Lineage.mem_or_exists_of_mem_collectInto {α : Type} {name : α → String}
    {own : ClassId → List α} {m : α} : ∀ (ls : List Lineage) {known : List α},
    m ∈ Lineage.collectInto name own known ls → m ∈ known ∨ ∃ id, m ∈ own id
  | [], known => by
      intro h
      rw [Lineage.collectInto] at h
      exact .inl h
  | l :: ls, known => by
      intro h
      rw [Lineage.collectInto] at h
      rcases Lineage.mem_or_exists_of_mem_collectInto ls h with h | h
      · rcases mem_addNew h with h | h
        · exact .inl h
        · exact .inr (Lineage.exists_of_mem_collect l h)
      · exact .inr h

end

namespace ClassTable

variable {t : ClassTable} {id : ClassId} {name : String}

lemma exists_of_mem_inheritedMethods {m : Method} (h : m ∈ t.inheritedMethods id) :
    ∃ c decl, t.get? c = some decl ∧ m ∈ decl.methods := by
  have hgrows := t.grows_methodPool id
  have hoffered : m ∈ Lineage.offers t.heritableMethods (t.ancestry id) →
      ∃ c, m ∈ t.heritableMethods c := by
    intro hm
    obtain ⟨c, -, -, hm⟩ := mem_offers_ancestry.mp hm
    exact ⟨c, hm⟩
  obtain ⟨c, hm⟩ : ∃ c, m ∈ t.heritableMethods c := by
    rcases mem_inheritedMethods.mp h with ⟨hm, -⟩ | hm
    · rcases hgrows.settled_of m hm with hm | ⟨hm, -⟩
      · exact ⟨id, hm⟩
      · exact hoffered hm
    · rcases hgrows.pending_of m hm with hm | ⟨hm, -⟩
      · cases hm
      · exact hoffered hm
  obtain ⟨decl, hdecl, hm, -⟩ := mem_heritableMethods.mp hm
  exact ⟨c, decl, hdecl, hm⟩

lemma exists_of_declared {α : Type} {members : ClassDef → List α} {p : α → Bool} {m : α}
    (h : (t.get? id).bind (fun decl => (members decl).find? p) = some m) :
    ∃ c decl, t.get? c = some decl ∧ m ∈ members decl := by
  obtain ⟨decl, hdecl, hfind⟩ := Option.bind_eq_some_iff.mp h
  exact ⟨id, decl, hdecl, List.mem_of_find?_eq_some hfind⟩

/-- What is looked up, through however many ancestors, is declared by some class. -/
lemma exists_of_method? {m : Method} (h : t.method? id name = some m) :
    ∃ c decl, t.get? c = some decl ∧ m ∈ decl.methods := by
  rw [method?] at h
  split at h
  case h_1 own hown =>
    cases h
    exact exists_of_declared hown
  case h_2 =>
    dsimp only at h
    split at h
    case h_1 hfind =>
      cases h
      exact exists_of_mem_inheritedMethods (List.mem_of_find?_eq_some hfind)
    case h_2 => exact exists_of_mem_inheritedMethods (List.mem_of_find?_eq_some h)

/-- The members that some walks collect from the inheritable ones are declared by some class. -/
lemma exists_of_mem_collectInto {α : Type} {key : α → String} {members : ClassDef → List α}
    {isShared : α → Bool} {m : α} {own : ClassId → List α}
    (hown : ∀ c, own c = ((t.get? c).map fun decl => (members decl).filter isShared).getD [])
    {walks : List Lineage} (h : m ∈ Lineage.collectInto key own (own id) walks) :
    ∃ c decl, t.get? c = some decl ∧ m ∈ members decl := by
  obtain ⟨c, hc⟩ : ∃ c, m ∈ own c := by
    rcases Lineage.mem_or_exists_of_mem_collectInto walks h with hm | hm
    · exact ⟨id, hm⟩
    · exact hm
  rw [hown] at hc
  cases hdecl : t.get? c with
  | none =>
      rw [hdecl] at hc
      cases hc
  | some decl =>
      rw [hdecl, Option.map_some, Option.getD_some] at hc
      exact ⟨c, decl, hdecl, (List.mem_filter.mp hc).1⟩

lemma exists_of_property? {p : Property} (h : t.property? id name = some p) :
    ∃ c decl, t.get? c = some decl ∧ p ∈ decl.properties := by
  rw [property?] at h
  split at h
  case h_1 own hown =>
    cases h
    exact exists_of_declared hown
  case h_2 =>
    have hmem := mem_sortByName.mp (List.mem_of_find?_eq_some h)
    exact exists_of_mem_collectInto (fun c => rfl) (List.mem_filter.mp hmem).1

lemma exists_of_constant? {c : Constant} (h : t.constant? id name = some c) :
    ∃ i decl, t.get? i = some decl ∧ c ∈ decl.constants := by
  rw [constant?] at h
  split at h
  case h_1 own hown =>
    cases h
    exact exists_of_declared hown
  case h_2 =>
    have hmem := mem_sortByName.mp (List.mem_of_find?_eq_some h)
    exact exists_of_mem_collectInto (fun i => rfl) (List.mem_filter.mp hmem).1

lemma exists_of_constructorWithin {steps : Nat} {m : Method}
    (h : t.constructorWithin steps id = some m) :
    ∃ c decl, t.get? c = some decl ∧ m ∈ decl.methods := by
  induction steps generalizing id with
  | zero => cases h
  | succ steps ih =>
      rw [constructorWithin] at h
      split at h
      case h_1 => cases h
      case h_2 decl hdecl =>
        split at h
        case h_1 own hown =>
          cases h
          exact ⟨id, decl, hdecl, List.mem_of_find?_eq_some hown⟩
        case h_2 =>
          obtain ⟨parent, -, hparent⟩ := Option.bind_eq_some_iff.mp h
          exact ih hparent

lemma lt_size_of_idOf? (h : t.idOf? name = some id) : id < t.size :=
  (List.findIdx?_eq_some_iff_getElem.mp h).1

lemma size_modify (t : ClassTable) (id : ClassId) (f : ClassDef → ClassDef) :
    (t.modify id f).size = t.size :=
  List.length_modify f t.defs id

lemma get?_modify (t : ClassTable) (id k : ClassId) (f : ClassDef → ClassDef) :
    (t.modify id f).get? k = (t.get? k).map fun decl => if id = k then f decl else decl := by
  rw [get?, modify, List.getElem?_modify, get?]
  rfl

lemma keys_modify (id : ClassId) {f : ClassDef → ClassDef}
    (hname : ∀ decl, (f decl).name = decl.name) : (t.modify id f).keys = t.keys := by
  refine List.ext_getElem? fun k => ?_
  have hget := t.get?_modify id k f
  rw [get?, get?] at hget
  rw [keys, keys, List.getElem?_map, List.getElem?_map, hget, Option.map_map]
  refine congrFun (congrArg Option.map (funext fun decl => ?_)) _
  dsimp only [Function.comp]
  split
  · rw [hname]
  · rfl

lemma size_add_le (t : ClassTable) (decl : ClassDef) : t.size ≤ (t.add decl).2.size := by
  rw [add]
  split
  · exact le_rfl
  · simp [size]

lemma lt_size_add {t : ClassTable} {decl : ClassDef} : (t.add decl).1 < (t.add decl).2.size := by
  rw [add]
  split
  case h_1 hfind => exact lt_size_of_idOf? hfind
  case h_2 => simp [size]

/-! ### Operations on coherent tables -/

namespace Coherent

/-- Every class is found by its name. -/
lemma idOf?_nameOf (h : t.Coherent) (hid : id < t.size) : t.idOf? (t.nameOf id) = some id :=
  idOf?_nameOf_of_nodup h.names hid

lemma superclass (h : t.Coherent) {decl : ClassDef} (hdecl : t.get? id = some decl)
    {parent : ClassId} (hparent : decl.superclass = some parent) : parent < t.size :=
  (h.defs id decl hdecl).parents parent (by simp [ClassDef.parents, hparent])

/-- A class without members may be added. -/
lemma addStub (h : t.Coherent) (name : String) (isInterface : Bool) (p : Position) :
    (t.add (.stub name isInterface p)).2.Coherent := by
  refine ⟨keys_nodup_add h.names _, ?_⟩
  rw [ClassTable.add]
  split
  case h_1 => exact h.defs
  case h_2 =>
    intro id decl hdecl
    have hsize : t.size ≤ (⟨t.defs ++ [.stub name isInterface p]⟩ : ClassTable).size := by
      simp [size]
    rcases Nat.lt_or_ge id t.defs.length with hid | hid
    · rw [get?, List.getElem?_append_left hid] at hdecl
      exact (h.defs id decl hdecl).mono hsize
    · rw [get?, List.getElem?_append_right hid] at hdecl
      obtain rfl := List.mem_singleton.mp (List.mem_of_getElem? hdecl)
      exact .stub name isInterface p

/-- A class may be changed into a coherent one of the same name. -/
lemma modify (h : t.Coherent) {f : ClassDef → ClassDef} (hname : ∀ decl, (f decl).name = decl.name)
    (hf : ∀ decl, t.get? id = some decl → decl.Coherent t.size id → (f decl).Coherent t.size id) :
    (t.modify id f).Coherent := by
  refine ⟨?_, fun k decl hdecl => ?_⟩
  · rw [keys_modify id hname]
    exact h.names
  · rw [size_modify]
    rw [get?_modify] at hdecl
    obtain ⟨old, hold, rfl⟩ := Option.map_eq_some_iff.mp hdecl
    have hcoherent := h.defs k old hold
    split
    case isTrue heq =>
      subst heq
      exact hf old hold hcoherent
    case isFalse => exact hcoherent

variable (h : t.Coherent)
include h

lemma method? {m : Method} (hm : t.method? id name = some m) : m.signature.Within t.size := by
  obtain ⟨c, decl, hdecl, hm⟩ := exists_of_method? hm
  exact ((h.defs c decl hdecl).methods m hm).2

lemma constructorOf? {m : Method} (hm : t.constructorOf? id = some m) :
    m.signature.Within t.size := by
  obtain ⟨c, decl, hdecl, hm⟩ := exists_of_constructorWithin hm
  exact ((h.defs c decl hdecl).methods m hm).2

lemma property? {p : Property} (hp : t.property? id name = some p) : p.type.Within t.size := by
  obtain ⟨c, decl, hdecl, hp⟩ := exists_of_property? hp
  exact ((h.defs c decl hdecl).properties p hp).2

lemma constant? {c : Constant} (hc : t.constant? id name = some c) : c.type.Within t.size := by
  obtain ⟨i, decl, hdecl, hc⟩ := exists_of_constant? hc
  exact ((h.defs i decl hdecl).constants c hc).2

end Coherent

end ClassTable

end ScriptCheck
