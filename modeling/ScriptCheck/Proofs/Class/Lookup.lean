import ScriptCheck.Proofs.Class.Precedence
import ScriptCheck.Proofs.Class.Unimplemented

/-!
Members are looked up by precedence.

A lookup merges what it meets on the walk through the ancestors level by level, sorts it by name and
then searches.

* `find?_collect` and `filter_settled_methods`: merging keeps, of each name, the first member in the
  order of the walk; of methods, the first concrete one.
* `find?_of_filter_eq`: where no more than one member of a name is left, sorting does not matter.
* `lookup_follows_precedence`: hence a lookup gives the class's own member, or else the one of the
  rule of precedence.
-/

namespace ScriptCheck

/-! ### The search -/

/-- Where at most one member passes a test, the order in which the members are searched does not
matter. -/
lemma find?_of_filter_eq {α : Type} {p : α → Bool} {l l' : List α} {o : Option α}
    (hmem : ∀ m, m ∈ l' ↔ m ∈ l) (h : l.filter p = o.toList) : l'.find? p = o := by
  have hpass : ∀ m, (m ∈ l' ∧ p m = true) ↔ o = some m := by
    intro m
    rw [hmem, ← List.mem_filter, h, Option.mem_toList]
  cases hfind : l'.find? p with
  | some m =>
      exact ((hpass m).mp ⟨List.mem_of_find?_eq_some hfind, List.find?_some hfind⟩).symm
  | none =>
      symm
      rw [Option.eq_none_iff_forall_ne_some]
      intro m hm
      obtain ⟨hm, hp⟩ := (hpass m).mpr hm
      exact List.find?_eq_none.mp hfind m hm hp

/-! ### Constants and properties -/

section Collect

variable {α : Type} {name : α → String} {n : String} {own : ClassId → List α}

/-- The member of a name among those of each class. -/
def ownNamed (name : α → String) (n : String) (own : ClassId → List α) (c : ClassId) : Option α :=
  (own c).find? (name · == n)

/-- Members of the name that are known stay alone; if there are none, the first new one is added. -/
lemma filter_addNew (known found : List α) :
    (addNew name known found).filter (name · == n) =
      if known.filter (name · == n) = [] then (found.filter (name · == n)).take 1
      else known.filter (name · == n) := by
  induction found generalizing known with
  | nil =>
      rw [List.filter_nil, List.take_nil]
      split
      · assumption
      · rfl
  | cons m found ih =>
      have hcons : addNew name known (m :: found) =
          addNew name (if known.any (name · == name m) then known else known ++ [m]) found := rfl
      rw [hcons, ih]
      by_cases hm : name m = n
      · have hany : known.any (name · == name m) = true ↔ known.filter (name · == n) ≠ [] := by
          simp [hm]
        by_cases hknown : known.filter (name · == n) = []
        · rw [if_neg fun h => hany.mp h hknown]
          simp [hknown, hm]
        · rw [if_pos (hany.mpr hknown), if_neg hknown, if_neg hknown]
      · have hsame : (if known.any (name · == name m) then known else known ++ [m]).filter
            (name · == n) = known.filter (name · == n) := by
          split
          · rfl
          · simp [hm]
        rw [hsame, List.filter_cons_of_neg (by simpa using hm)]

lemma find?_addNew (known found : List α) :
    (addNew name known found).find? (name · == n) =
      (known.find? (name · == n)).or (found.find? (name · == n)) := by
  simp only [← List.head?_filter, filter_addNew]
  split
  next h => simp [h, List.head?_take]
  next h =>
    obtain ⟨m, ms, hcons⟩ := List.exists_cons_of_ne_nil h
    rw [hcons]
    rfl

mutual

/-- Of each name the first member in the order of the walk is collected. -/
lemma find?_collect : ∀ l : Lineage,
    (l.collect name own).find? (name · == n) = l.classes.findSome? (ownNamed name n own)
  | .node id parents => by
      rw [Lineage.collect, Lineage.classes, find?_collectInto, List.findSome?_cons]
      cases h : (own id).find? (name · == n) <;> simp [ownNamed, h, ClassTable.firstIn]

lemma find?_collectInto : ∀ (ls : List Lineage) (known : List α),
    (Lineage.collectInto name own known ls).find? (name · == n) =
      (known.find? (name · == n)).or (ClassTable.firstIn (ownNamed name n own) ls)
  | [], known => by
      rw [Lineage.collectInto]
      exact (Option.or_none).symm
  | l :: ls, known => by
      rw [Lineage.collectInto, find?_collectInto ls, find?_addNew, find?_collect l, Option.or_assoc,
        ClassTable.firstIn, ClassTable.firstIn, Lineage.classesOf, List.findSome?_append]

end

/-- Where at most one member of the name is known, at most one is collected. -/
lemma filter_collectInto {known : List α} {o : Option α}
    (h : known.filter (name · == n) = o.toList) (ls : List Lineage) :
    (Lineage.collectInto name own known ls).filter (name · == n) =
      (o.or (ClassTable.firstIn (ownNamed name n own) ls)).toList := by
  induction ls generalizing known o with
  | nil =>
      rw [Lineage.collectInto, h]
      exact congrArg Option.toList Option.or_none.symm
  | cons l ls ih =>
      have hnew : (addNew name known (l.collect name own)).filter (name · == n) =
          (o.or ((l.collect name own).find? (name · == n))).toList := by
        rw [filter_addNew, h]
        cases o with
        | some m => rfl
        | none =>
            rw [← List.head?_filter, Option.none_or]
            cases (l.collect name own).filter (name · == n) <;> rfl
      rw [Lineage.collectInto, ih hnew, find?_collect, Option.or_assoc, ClassTable.firstIn,
        ClassTable.firstIn, Lineage.classesOf, List.findSome?_append]

/-- The inherited member of a name that the class has not is the first one on the walks into its
parents. -/
lemma find?_inherited {t : ClassTable} (own : ClassId → List α) (owner : α → ClassId)
    {id : ClassId} (howns : ∀ c, ∀ m ∈ own c, owner m = c) (hnone : ∀ m ∈ own id, name m ≠ n) :
    (sortByName name ((Lineage.collectInto name own (own id) (t.ancestry id)).filter
      (owner · != id))).find? (name · == n) =
      ClassTable.firstIn (ownNamed name n own) (t.ancestry id) := by
  have hknown : (own id).filter (name · == n) = (none : Option α).toList := by
    simpa [List.filter_eq_nil_iff] using hnone
  refine find?_of_filter_eq (fun m => mem_sortByName) ?_
  rw [List.filter_comm, filter_collectInto hknown, Option.none_or, List.filter_eq_self]
  -- the member belongs to an ancestor, not to the class itself
  intro m hm
  obtain ⟨c, hc, hm⟩ := List.exists_of_findSome?_eq_some (Option.mem_toList.mp hm)
  have howner := howns c m (List.mem_of_find?_eq_some hm)
  rw [bne_iff_ne, howner]
  exact (ClassTable.mem_ancestry_iff.mp hc).1

end Collect

/-! ### Methods -/

section Methods

variable {n : String}

/-- Whether a method has the name and is concrete. -/
def Method.implements (m : Method) (n : String) : Bool :=
  m.isNamed n && !m.isAbstract

/-- The concrete method of a name among those of each class. -/
def ownConcrete (n : String) (own : ClassId → List Method) (c : ClassId) : Option Method :=
  (own c).find? (·.implements n)

namespace MethodPool

variable {pool other : MethodPool} {o o' : Option Method}

lemma settled_add (pool : MethodPool) (m : Method) :
    (pool.add m).settled =
      if pool.settled.any (·.isNamed m.name) || m.isAbstract then pool.settled
      else pool.settled ++ [m] := by
  rw [add]
  cases pool.settled.any (·.isNamed m.name) <;> cases m.isAbstract <;> rfl

/-- A settled method of the name stays alone; if there is none, the method is settled if it is
concrete. -/
lemma filter_settled_add (h : pool.settled.filter (·.isNamed n) = o.toList) (m : Method) :
    (pool.add m).settled.filter (·.isNamed n) =
      (o.or (if m.implements n then some m else none)).toList := by
  rw [settled_add, Method.implements]
  by_cases hm : m.isNamed n = true
  · have hany : pool.settled.any (·.isNamed m.name) = o.isSome := by
      simp only [Method.isNamed_congr hm]
      rw [← List.isSome_find?, ← List.head?_filter, h]
      cases o <;> rfl
    rw [hany, hm, Bool.true_and]
    cases o with
    | some k => exact h
    | none =>
        cases m.isAbstract with
        | true => exact h
        | false => simpa [hm] using h
  · have hskip : (if pool.settled.any (·.isNamed m.name) || m.isAbstract then pool.settled
        else pool.settled ++ [m]).filter (·.isNamed n) = pool.settled.filter (·.isNamed n) := by
      split
      · rfl
      · simp [hm]
    rw [hskip, h, if_neg (by simp [hm]), Option.or_none]

lemma filter_settled_foldl_add (h : pool.settled.filter (·.isNamed n) = o.toList)
    (ms : List Method) :
    (ms.foldl add pool).settled.filter (·.isNamed n) =
      (o.or (ms.find? (·.implements n))).toList := by
  induction ms generalizing pool o with
  | nil => simpa using h
  | cons m ms ih =>
      rw [List.foldl_cons, ih (filter_settled_add h m), Option.or_assoc, List.find?_cons]
      cases m.implements n <;> rfl

/-- Merging the pool of another walk: its settled methods are concrete, and the abstract ones
settle nothing. -/
lemma filter_settled_merge {ms : List Method} (hother : Grows {} ms other)
    (h : pool.settled.filter (·.isNamed n) = o.toList)
    (h' : other.settled.filter (·.isNamed n) = o'.toList) :
    (pool.merge other).settled.filter (·.isNamed n) = (o.or o').toList := by
  have hpending : other.pending.find? (·.implements n) = none := by
    rw [List.find?_eq_none]
    intro m hm
    have ha := ((hother.pending_of m hm).resolve_left (by simp)).2.1
    simp [Method.implements, ha]
  have hsettled : other.settled.filter (·.implements n) = other.settled.filter (·.isNamed n) := by
    refine List.filter_congr fun m hm => ?_
    have ha := ((hother.settled_of m hm).resolve_left (by simp)).2
    simp [Method.implements, ha]
  rw [merge, filter_settled_foldl_add (filter_settled_foldl_add h _), hpending, Option.or_none,
    ← List.head?_filter, hsettled, h', Option.head?_toList]

end MethodPool

mutual

/-- Of each name the first concrete method in the order of the walk is settled. -/
lemma filter_settled_methods (own : ClassId → List Method) : ∀ l : Lineage,
    (l.methods own).settled.filter (·.isNamed n) =
      (l.classes.findSome? (ownConcrete n own)).toList
  | .node id parents => by
      have hempty : ({} : MethodPool).settled.filter (·.isNamed n) = (none : Option Method).toList :=
        rfl
      have hown := MethodPool.filter_settled_foldl_add hempty (own id)
      rw [Lineage.methods, Lineage.classes, filter_settled_methodsInto own parents hown,
        List.findSome?_cons, Option.none_or]
      cases h : (own id).find? (·.implements n) <;> simp [ownConcrete, h, ClassTable.firstIn]

lemma filter_settled_methodsInto (own : ClassId → List Method) : ∀ (ls : List Lineage)
    {pool : MethodPool} {o : Option Method}, pool.settled.filter (·.isNamed n) = o.toList →
    (Lineage.methodsInto own pool ls).settled.filter (·.isNamed n) =
      (o.or (ClassTable.firstIn (ownConcrete n own) ls)).toList
  | [], pool, o, h => by
      rw [Lineage.methodsInto, h]
      exact congrArg Option.toList Option.or_none.symm
  | l :: ls, pool, o, h => by
      have hmerge := MethodPool.filter_settled_merge (Lineage.grows_methods own l) h
        (filter_settled_methods own l)
      rw [Lineage.methodsInto, filter_settled_methodsInto own ls hmerge, Option.or_assoc,
        ClassTable.firstIn, ClassTable.firstIn, Lineage.classesOf, List.findSome?_append]

end

end Methods

/-- The members that a class declares, of all kinds. -/
def ClassDef.members (decl : ClassDef) : List Member :=
  decl.constants.map (·.toMember) ++ decl.properties.map (·.toMember) ++
    decl.methods.map (·.toMember)

namespace ClassTable

/-! ### Owners -/

/-- Every member names the class that declares it as its owner. -/
def OwnsMembers (t : ClassTable) : Prop :=
  ∀ (c : ClassId) (decl : ClassDef), t.get? c = some decl → ∀ m ∈ decl.members, m.owner = c

instance (t : ClassTable) : Decidable t.OwnsMembers :=
  decidable_of_iff (∀ c : Fin t.defs.length, ∀ m ∈ (t.defs.get c).members, m.owner = c.val)
    (forall_get_iff fun c decl => ∀ m ∈ decl.members, m.owner = c)

lemma mem_sharedConstants {t : ClassTable} {c : ClassId} {m : Constant} :
    m ∈ t.sharedConstants c ↔
      ∃ decl, t.get? c = some decl ∧ m ∈ decl.constants ∧ m.isShared = true := by
  cases h : t.get? c <;> simp [sharedConstants, h]

lemma mem_sharedProperties {t : ClassTable} {c : ClassId} {m : Property} :
    m ∈ t.sharedProperties c ↔
      ∃ decl, t.get? c = some decl ∧ m ∈ decl.properties ∧ m.isShared = true := by
  cases h : t.get? c <;> simp [sharedProperties, h]

namespace OwnsMembers

variable {t : ClassTable} (ht : t.OwnsMembers) {c : ClassId}
include ht

lemma constant_owner {m : Constant} (hm : m ∈ t.sharedConstants c) : m.owner = c := by
  obtain ⟨decl, hdecl, hm, -⟩ := mem_sharedConstants.mp hm
  refine ht c decl hdecl m.toMember ?_
  simp only [ClassDef.members, List.mem_append]
  exact .inl (.inl (List.mem_map_of_mem hm))

lemma property_owner {m : Property} (hm : m ∈ t.sharedProperties c) : m.owner = c := by
  obtain ⟨decl, hdecl, hm, -⟩ := mem_sharedProperties.mp hm
  refine ht c decl hdecl m.toMember ?_
  simp only [ClassDef.members, List.mem_append]
  exact .inl (.inr (List.mem_map_of_mem hm))

lemma ownsMethods : t.OwnsMethods := by
  intro c decl hdecl m hm
  refine ht c decl hdecl m.toMember ?_
  simp only [ClassDef.members, List.mem_append]
  exact .inr (List.mem_map_of_mem hm)

end OwnsMembers

/-! ### Looking up a member -/

section Lookup

variable {t : ClassTable} (hacyclic : t.IsAcyclic) (howns : t.OwnsMembers) {id : ClassId}
  {name : String}
include hacyclic howns

lemma property?_of_undeclared (hnone : (t.get? id).bind (·.declaredProperty? name) = none) :
    t.property? id name =
      (t.parents id).findSome? (handedDown hacyclic (ownNamed (·.name) name t.sharedProperties)) := by
  have hfree : ∀ m ∈ t.sharedProperties id, m.name ≠ name := by
    intro m hm hname
    obtain ⟨decl, hdecl, hm, -⟩ := mem_sharedProperties.mp hm
    rw [hdecl, Option.bind_some, ClassDef.declaredProperty?, List.find?_eq_none] at hnone
    exact hnone m hm (by simpa using hname)
  rw [property?, hnone, ← firstIn_ancestry]
  exact find?_inherited t.sharedProperties (·.owner) (fun c m hm => howns.property_owner hm) hfree

lemma constant?_of_undeclared (hnone : (t.get? id).bind (·.declaredConstant? name) = none) :
    t.constant? id name =
      (t.parents id).findSome? (handedDown hacyclic (ownNamed (·.name) name t.sharedConstants)) := by
  have hfree : ∀ m ∈ t.sharedConstants id, m.name ≠ name := by
    intro m hm hname
    obtain ⟨decl, hdecl, hm, -⟩ := mem_sharedConstants.mp hm
    rw [hdecl, Option.bind_some, ClassDef.declaredConstant?, List.find?_eq_none] at hnone
    exact hnone m hm (by simpa using hname)
  rw [constant?, hnone, ← firstIn_ancestry]
  exact find?_inherited t.sharedConstants (·.owner) (fun c m hm => howns.constant_owner hm) hfree

omit hacyclic howns in
lemma heritable_of_undeclared (hnone : (t.get? id).bind (·.declaredMethod? name) = none) :
    ∀ m ∈ t.heritableMethods id, m.isNamed name = false := by
  intro m hm
  obtain ⟨decl, hdecl, hm, -⟩ := mem_heritableMethods.mp hm
  rw [hdecl, Option.bind_some, ClassDef.declaredMethod?, List.find?_eq_none] at hnone
  simpa using hnone m hm

omit hacyclic in
/-- A settled method of a name that the class does not declare is a concrete one of an ancestor. -/
lemma settled_of_undeclared (hown : ∀ m ∈ t.heritableMethods id, m.isNamed name = false)
    {m : Method} (hm : m ∈ (t.methodPool id).settled) (hname : m.isNamed name = true) :
    m.isAbstract = false ∧ m.owner ≠ id := by
  rcases (t.grows_methodPool id).settled_of m hm with hm | ⟨hoffered, hconcrete⟩
  · rw [hown m hm] at hname
    cases hname
  · obtain ⟨c, hne, -, hm⟩ := mem_offers_ancestry.mp hoffered
    exact ⟨hconcrete, howns.ownsMethods.owner_eq hm ▸ hne⟩

/-- The inherited concrete method of a name that the class does not declare is the one of the
rule. -/
lemma find?_implements (hown : ∀ m ∈ t.heritableMethods id, m.isNamed name = false) :
    (t.inheritedMethods id).find? (·.implements name) =
      (t.parents id).findSome? (handedDown hacyclic (ownConcrete name t.heritableMethods)) := by
  have hnone : ({ settled := t.heritableMethods id } : MethodPool).settled.filter (·.isNamed name) =
      (none : Option Method).toList := by
    simpa [List.filter_eq_nil_iff] using hown
  have hsettled : ((t.methodPool id).settled.filter (·.owner != id)).filter (·.implements name) =
      (t.methodPool id).settled.filter (·.isNamed name) := by
    rw [List.filter_filter]
    refine List.filter_congr fun m hm => ?_
    cases hname : m.isNamed name with
    | false => simp [Method.implements, hname]
    | true =>
        obtain ⟨hconcrete, howner⟩ := settled_of_undeclared howns hown hm hname
        simp [Method.implements, hname, hconcrete, howner]
  have hpending : (t.methodPool id).pending.filter (·.implements name) = [] := by
    rw [List.filter_eq_nil_iff]
    intro m hm
    have habstract := (((t.grows_methodPool id).pending_of m hm).resolve_left (by simp)).2.1
    simp [Method.implements, habstract]
  rw [← firstIn_ancestry]
  refine find?_of_filter_eq (fun m => mem_sortByName) ?_
  rw [List.filter_append]
  refine (congrArg₂ (· ++ ·) hsettled hpending).trans ?_
  rw [List.append_nil]
  exact filter_settled_methodsInto t.heritableMethods (t.ancestry id) hnone

omit hacyclic in
/-- A class inherits a method of a name that it does not declare exactly if a proper ancestor offers
one, concrete or abstract. -/
lemma inherits_iff (hown : ∀ m ∈ t.heritableMethods id, m.isNamed name = false) :
    (∃ m ∈ t.inheritedMethods id, m.isNamed name = true) ↔
      ∃ c, c ≠ id ∧ t.Descends id c ∧ ∃ m ∈ t.heritableMethods c, m.isNamed name = true := by
  have hgrows := t.grows_methodPool id
  constructor
  · rintro ⟨m, hm, hname⟩
    have hoffered : m ∈ Lineage.offers t.heritableMethods (t.ancestry id) := by
      rcases mem_inheritedMethods.mp hm with ⟨hm, -⟩ | hm
      · rcases hgrows.settled_of m hm with hm | hm
        · rw [hown m hm] at hname
          cases hname
        · exact hm.1
      · exact ((hgrows.pending_of m hm).resolve_left (by simp)).1
    obtain ⟨c, hne, hd, hm⟩ := mem_offers_ancestry.mp hoffered
    exact ⟨c, hne, hd, m, hm, hname⟩
  · rintro ⟨c, hne, hd, m, hm, hname⟩
    have hoffered := mem_offers_ancestry.mpr ⟨c, hne, hd, hm⟩
    -- the method is kept, or else a settled one hides it
    have hmet : m ∈ (t.methodPool id).pending ∨ (t.methodPool id).Settles m.name := by
      cases ha : m.isAbstract with
      | true => exact hgrows.kept m hoffered ha
      | false =>
          refine .inr ((hgrows.settles_iff _).mpr (.inr ⟨m, hoffered, ?_, ha⟩))
          exact Method.isNamed_iff.mpr rfl
    rcases hmet with hm | hsettles
    · exact ⟨m, mem_inheritedMethods.mpr (.inr hm), hname⟩
    · obtain ⟨k, hk, hkname⟩ := (MethodPool.Settles.congr hname).mp hsettles
      have howner := (settled_of_undeclared howns hown hk hkname).2
      exact ⟨k, mem_inheritedMethods.mpr (.inl ⟨hk, howner⟩), hkname⟩

/-- A method that the class does not declare is the one of the rule, or else any that it
inherits. -/
lemma method?_of_undeclared (hnone : (t.get? id).bind (·.declaredMethod? name) = none) :
    t.method? id name =
      ((t.parents id).findSome? (handedDown hacyclic (ownConcrete name t.heritableMethods))).or
        ((t.inheritedMethods id).find? (·.isNamed name)) := by
  rw [← find?_implements hacyclic howns (heritable_of_undeclared hnone), method?, hnone]
  simp only [Method.implements]
  cases (t.inheritedMethods id).find? fun m => m.isNamed name && !m.isAbstract <;> rfl

end Lookup

/-- A class's own member, or else what the first of its parents hands down that has something to
hand down. -/
def byPrecedence {α : Type} {t : ClassTable} (ht : t.IsAcyclic) (declared : Option α)
    (own : ClassId → Option α) (id : ClassId) : Option α :=
  declared.or ((t.parents id).findSome? (handedDown ht own))

/-- **Members are looked up by precedence.** In a table without cycles, the property and the constant
of a name are the class's own, private or not, or else those that the rule finds among the shared
ones of its ancestors. The method of a name is the class's own or else the concrete one that the
rule finds; if there is neither, there is still a method exactly if a proper ancestor has one that
is inherited. -/
theorem lookup_follows_precedence (t : ClassTable) (hacyclic : t.IsAcyclic)
    (howns : t.OwnsMembers) (id : ClassId) (name : String) :
    t.property? id name =
      byPrecedence hacyclic ((t.get? id).bind (·.declaredProperty? name))
        (ownNamed (·.name) name t.sharedProperties) id ∧
    t.constant? id name =
      byPrecedence hacyclic ((t.get? id).bind (·.declaredConstant? name))
        (ownNamed (·.name) name t.sharedConstants) id ∧
    (∀ m, byPrecedence hacyclic ((t.get? id).bind (·.declaredMethod? name))
        (ownConcrete name t.heritableMethods) id = some m → t.method? id name = some m) ∧
    (byPrecedence hacyclic ((t.get? id).bind (·.declaredMethod? name))
        (ownConcrete name t.heritableMethods) id = none →
      (t.method? id name = none ↔
        ∀ c, t.ProperAncestor id c → ∀ m ∈ t.heritableMethods c, m.isNamed name = false)) := by
  refine ⟨?_, ?_, ?_, ?_⟩
  · cases hown : (t.get? id).bind (·.declaredProperty? name) with
    | some p => rw [property?, hown, byPrecedence, Option.some_or]
    | none => rw [property?_of_undeclared hacyclic howns hown, byPrecedence, Option.none_or]
  · cases hown : (t.get? id).bind (·.declaredConstant? name) with
    | some c => rw [constant?, hown, byPrecedence, Option.some_or]
    | none => rw [constant?_of_undeclared hacyclic howns hown, byPrecedence, Option.none_or]
  · intro m hm
    cases hown : (t.get? id).bind (·.declaredMethod? name) with
    | some k =>
        rw [byPrecedence, hown, Option.some_or] at hm
        rw [method?, hown]
        exact hm
    | none =>
        rw [byPrecedence, hown, Option.none_or] at hm
        rw [method?_of_undeclared hacyclic howns hown, hm, Option.some_or]
  · intro hnone
    obtain ⟨hown, hrule⟩ := Option.or_eq_none_iff.mp hnone
    have hinherits := inherits_iff howns (heritable_of_undeclared hown)
    simp only [← and_assoc, hacyclic.ne_and_descends_iff] at hinherits
    rw [method?_of_undeclared hacyclic howns hown, hrule, Option.none_or, List.find?_eq_none]
    simpa using not_congr hinherits

/-- A board of shapes. The picture extends the sprite and is drawable; the sprite and the drawable both
derive from the shape. The sprite keeps its own size to itself, and the drawable asks for `Draw`. -/
def pictures : ClassTable where
  defs :=
    [{ name := "Shape", position := default,
       properties := [{ name := "size", owner := 0, position := default, type := .mixed }],
       constants := [{ name := "SIDES", owner := 0, position := default, type := .int }],
       methods := [{ name := "area", owner := 0, position := default }] },
      { name := "Sprite", superclass := some 0, position := default,
        properties := [{ name := "size", owner := 1, visibility := .owner, position := default,
                         type := .int }] },
      { name := "Drawable", isInterface := true, interfaces := [0], position := default,
        properties := [{ name := "size", owner := 2, position := default, type := .int }],
        constants := [{ name := "SIDES", owner := 2, position := default, type := .int }],
        methods := [{ name := "Draw", isAbstract := true, owner := 2, position := default },
          { name := "Area", owner := 2, position := default }] },
      { name := "Picture", superclass := some 1, interfaces := [2], position := default }]

/-- The picture has the size of the shape: that of the sprite is private, and what the sprite hands
down comes before what the drawable declares. So it is with the area, in any case of its name. The
drawing is only asked for, and still found. -/
theorem pictures_follow_precedence :
    ∃ h : pictures.IsAcyclic, pictures.OwnsMembers ∧
      (byPrecedence h ((pictures.get? 3).bind (·.declaredProperty? "size"))
        (ownNamed (·.name) "size" pictures.sharedProperties) 3).map (·.owner) = some 0 ∧
      (pictures.method? 3 "AREA").map (·.owner) = some 0 ∧ pictures.method? 3 "draw" ≠ none := by
  have h : pictures.IsAcyclic := by decide +kernel
  have howns : pictures.OwnsMembers := by decide +kernel
  have harea : (byPrecedence h ((pictures.get? 3).bind (·.declaredMethod? "AREA"))
      (ownConcrete "AREA" pictures.heritableMethods) 3).map (·.owner) = some 0 := by
    rw [byPrecedence, ← firstIn_ancestry]
    decide +kernel
  have hdraw : byPrecedence h ((pictures.get? 3).bind (·.declaredMethod? "draw"))
      (ownConcrete "draw" pictures.heritableMethods) 3 = none := by
    rw [byPrecedence, ← firstIn_ancestry]
    decide +kernel
  refine ⟨h, howns, ?_, ?_, fun hnone => ?_⟩
  · rw [← (lookup_follows_precedence pictures h howns 3 "size").1]
    decide +kernel
  · obtain ⟨m, hm, howner⟩ := Option.map_eq_some_iff.mp harea
    rw [(lookup_follows_precedence pictures h howns 3 "AREA").2.2.1 m hm, Option.map_some, howner]
  · have hfree := ((lookup_follows_precedence pictures h howns 3 "draw").2.2.2 hdraw).mp hnone
    have hparent : 2 ∈ pictures.parents 3 := by decide
    have hancestor : pictures.ProperAncestor 3 2 := Relation.TransGen.single hparent
    exact absurd (hfree 2 hancestor) (by decide +kernel)

end ClassTable

end ScriptCheck
