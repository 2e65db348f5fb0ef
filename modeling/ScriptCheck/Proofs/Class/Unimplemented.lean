import ScriptCheck.Class.Members
import ScriptCheck.Proofs.Class.Ancestors

/-!
The methods that an instantiable class still has to implement.

The class table answers this question by a walk: the methods of the ancestors are merged into a
pool in the order of the walk, and what the pool holds at the end is filtered. The order does not
matter for the answer.

* `MethodPool.Grows`: what a pool holds after some methods were added, whatever their order;
  `grows_methodsInto` is the whole walk.
* `Owes`: the class has an ancestor with an abstract method of the name, no ancestor with a
  concrete one, and no method of its own that counts.
* `unimplemented_iff_owes`: a name is among the unimplemented methods exactly if the class owes it,
  and then once.
-/

namespace ScriptCheck

/-! ### Names of methods -/

lemma Method.isNamed_iff {m : Method} {name : String} :
    m.isNamed name = true ↔ Text.lowerAscii m.name = Text.lowerAscii name := by
  rw [isNamed, Text.sameIgnoringCase, beq_iff_eq]

/-- Whether a method has a name depends on the name only up to case. -/
lemma Method.isNamed_congr {m k : Method} {name : String} (h : k.isNamed name = true) :
    m.isNamed k.name = m.isNamed name := by
  rw [isNamed, isNamed, Text.sameIgnoringCase, Text.sameIgnoringCase, isNamed_iff.mp h]

/-! ### Order by name -/

lemma mem_insertByName {α : Type} {name : α → String} {m k : α} {members : List α} :
    k ∈ insertByName name m members ↔ k = m ∨ k ∈ members := by
  induction members with
  | nil => simp [insertByName]
  | cons x rest ih =>
      rw [insertByName]
      split
      · simp
      · rw [List.mem_cons, ih, List.mem_cons, or_left_comm]

lemma mem_sortByName {α : Type} {name : α → String} {k : α} {members : List α} :
    k ∈ sortByName name members ↔ k ∈ members := by
  induction members with
  | nil => simp [sortByName]
  | cons x rest ih =>
      have hcons : sortByName name (x :: rest) = insertByName name x (sortByName name rest) := rfl
      rw [hcons, mem_insertByName, ih, List.mem_cons]

/-! ### Pools of methods -/

namespace MethodPool

/-- A method of the name is settled. -/
def Settles (pool : MethodPool) (name : String) : Prop :=
  ∃ m ∈ pool.settled, m.isNamed name = true

/-- The second pool holds what the first holds and the methods offered, as far as settled methods
do not hide them. Nothing here depends on the order in which the methods were offered. -/
structure Grows (pool : MethodPool) (offered : List Method) (pool' : MethodPool) : Prop where
  /-- A name becomes settled by a concrete method. -/
  settles_iff (name : String) : pool'.Settles name ↔
    pool.Settles name ∨ ∃ m ∈ offered, m.isNamed name = true ∧ m.isAbstract = false
  settled_of (m : Method) : m ∈ pool'.settled →
    m ∈ pool.settled ∨ (m ∈ offered ∧ m.isAbstract = false)
  /-- An abstract method is kept only if its name was not settled. -/
  pending_of (m : Method) : m ∈ pool'.pending →
    m ∈ pool.pending ∨ (m ∈ offered ∧ m.isAbstract = true ∧ ¬ pool.Settles m.name)
  pending_mono : pool.pending ⊆ pool'.pending
  /-- An abstract method that is not kept has a settled name. -/
  kept (m : Method) : m ∈ offered → m.isAbstract = true →
    m ∈ pool'.pending ∨ pool'.Settles m.name

lemma Settles.congr {pool : MethodPool} {m : Method} {name : String} (hm : m.isNamed name = true) :
    pool.Settles m.name ↔ pool.Settles name := by
  rw [Settles, Settles]
  simp only [Method.isNamed_congr hm]

lemma Grows.refl (pool : MethodPool) : Grows pool [] pool where
  settles_iff name := by simp
  settled_of m hm := Or.inl hm
  pending_of m hm := Or.inl hm
  pending_mono := fun m hm => hm
  kept m hm := by simp at hm

lemma Grows.trans {p q r : MethodPool} {ms ks : List Method} (h : Grows p ms q)
    (h' : Grows q ks r) : Grows p (ms ++ ks) r where
  settles_iff name := by
    rw [h'.settles_iff, h.settles_iff]
    simp only [List.mem_append, or_and_right, exists_or, or_assoc]
  settled_of m hm := by
    rcases h'.settled_of m hm with hq | ⟨hk, ha⟩
    · exact (h.settled_of m hq).imp_right fun hm => ⟨List.mem_append_left _ hm.1, hm.2⟩
    · exact Or.inr ⟨List.mem_append_right _ hk, ha⟩
  pending_of m hm := by
    rcases h'.pending_of m hm with hq | ⟨hk, ha, hfree⟩
    · exact (h.pending_of m hq).imp_right fun hm => ⟨List.mem_append_left _ hm.1, hm.2⟩
    · -- what is settled in the first pool is settled in the second
      have hfirst : ¬ p.Settles m.name := fun hs => hfree ((h.settles_iff _).mpr (Or.inl hs))
      exact Or.inr ⟨List.mem_append_right _ hk, ha, hfirst⟩
  pending_mono := fun m hm => h'.pending_mono (h.pending_mono hm)
  kept m hm ha := by
    rcases List.mem_append.mp hm with hm | hm
    · rcases h.kept m hm ha with hq | hq
      · exact Or.inl (h'.pending_mono hq)
      · exact Or.inr ((h'.settles_iff _).mpr (Or.inl hq))
    · exact h'.kept m hm ha

/-- Adding one method. -/
lemma grows_add (pool : MethodPool) (m : Method) : Grows pool [m] (pool.add m) := by
  have hsettles : pool.settled.any (·.isNamed m.name) = true ↔ pool.Settles m.name := by
    rw [List.any_eq_true, Settles]
  by_cases hs : pool.Settles m.name
  · -- the name is settled: the method is dropped
    have hadd : pool.add m = pool := if_pos (hsettles.mpr hs)
    rw [hadd]
    refine ⟨fun name => ⟨Or.inl, ?_⟩, fun k hk => Or.inl hk, fun k hk => Or.inl hk,
      fun k hk => hk, ?_⟩
    · rintro (h | ⟨k, hk, hname, -⟩)
      · exact h
      · rw [List.mem_singleton.mp hk] at hname
        exact (Settles.congr hname).mp hs
    · intro k hk _
      rw [List.mem_singleton.mp hk]
      exact Or.inr hs
  · have hadd : pool.add m = if m.isAbstract then { pool with pending := pool.pending ++ [m] }
        else { pool with settled := pool.settled ++ [m] } := if_neg fun h => hs (hsettles.mp h)
    cases ha : m.isAbstract with
    | true =>
        rw [hadd, if_pos ha]
        refine ⟨fun name => ?_, fun k hk => Or.inl hk, fun k hk => ?_, fun k hk => ?_, ?_⟩
        · simp [Settles, ha]
        · rcases List.mem_append.mp hk with hk | hk
          · exact Or.inl hk
          · rw [List.mem_singleton.mp hk]
            exact Or.inr ⟨List.mem_singleton.mpr rfl, ha, hs⟩
        · exact List.mem_append_left _ hk
        · exact fun k hk _ => Or.inl (List.mem_append_right _ hk)
    | false =>
        rw [hadd, if_neg (by simp [ha])]
        refine ⟨fun name => ?_, fun k hk => ?_, fun k hk => Or.inl hk, fun k hk => hk, ?_⟩
        · simp [Settles, ha, or_and_right, exists_or]
        · rcases List.mem_append.mp hk with hk | hk
          · exact Or.inl hk
          · rw [List.mem_singleton.mp hk]
            exact Or.inr ⟨List.mem_singleton.mpr rfl, ha⟩
        · intro k hk hka
          rw [List.mem_singleton.mp hk, ha] at hka
          exact absurd hka (by simp)

/-- Adding methods one after another. -/
lemma grows_foldl_add (ms : List Method) (pool : MethodPool) :
    Grows pool ms (ms.foldl add pool) := by
  induction ms generalizing pool with
  | nil => exact Grows.refl pool
  | cons m ms ih => exact (grows_add pool m).trans (ih (pool.add m))

/-- Merging the pool of another walk adds the methods that the other walk met. Those it had
dropped are hidden by what it settled. -/
lemma grows_merge {other : MethodPool} {ms : List Method} (h : Grows {} ms other)
    (pool : MethodPool) : Grows pool ms (pool.merge other) := by
  have hall : Grows pool (other.settled ++ other.pending) (pool.merge other) :=
    (grows_foldl_add other.settled pool).trans (grows_foldl_add other.pending _)
  have hsettled : ∀ m ∈ other.settled, m ∈ ms ∧ m.isAbstract = false := fun m hm =>
    (h.settled_of m hm).resolve_left (by simp)
  have hpending : ∀ m ∈ other.pending, m ∈ ms ∧ m.isAbstract = true := fun m hm =>
    ((h.pending_of m hm).resolve_left (by simp)).imp_right fun hm => hm.1
  have hmet : ∀ m ∈ other.settled ++ other.pending, m ∈ ms := fun m hm =>
    (List.mem_append.mp hm).elim (fun hm => (hsettled m hm).1) fun hm => (hpending m hm).1
  refine ⟨fun name => ?_, fun m hm => ?_, fun m hm => ?_, hall.pending_mono, fun m hm ha => ?_⟩
  · rw [hall.settles_iff]
    refine or_congr_right ⟨?_, ?_⟩
    · rintro ⟨m, hm, hname, ha⟩
      exact ⟨m, hmet m hm, hname, ha⟩
    · intro hm
      obtain ⟨k, hk, hname⟩ := (h.settles_iff name).mpr (Or.inr hm)
      exact ⟨k, List.mem_append_left _ hk, hname, (hsettled k hk).2⟩
  · exact (hall.settled_of m hm).imp_right fun hm => ⟨hmet m hm.1, hm.2⟩
  · exact (hall.pending_of m hm).imp_right fun hm => ⟨hmet m hm.1, hm.2⟩
  · rcases h.kept m hm ha with hk | ⟨k, hk, hname⟩
    · exact hall.kept m (List.mem_append_right _ hk) ha
    · refine Or.inr ((hall.settles_iff _).mpr (Or.inr ⟨k, ?_, hname, (hsettled k hk).2⟩))
      exact List.mem_append_left _ hk

end MethodPool

/-! ### The walk -/

/-- The methods of the classes of some walks. -/
def Lineage.offers (own : ClassId → List Method) (ls : List Lineage) : List Method :=
  (Lineage.classesOf ls).flatMap own

mutual

lemma Lineage.grows_methods (own : ClassId → List Method) : ∀ l : Lineage,
    MethodPool.Grows {} (l.classes.flatMap own) (l.methods own)
  | .node id parents => by
      rw [Lineage.methods, Lineage.classes, List.flatMap_cons]
      exact (MethodPool.grows_foldl_add (own id) {}).trans (grows_methodsInto own parents _)

/-- A walk adds the methods of the classes it enters. -/
lemma Lineage.grows_methodsInto (own : ClassId → List Method) : ∀ (ls : List Lineage)
    (pool : MethodPool), pool.Grows (Lineage.offers own ls) (Lineage.methodsInto own pool ls)
  | [], pool => by
      rw [Lineage.methodsInto]
      exact MethodPool.Grows.refl pool
  | l :: ls, pool => by
      rw [Lineage.methodsInto, Lineage.offers, Lineage.classesOf, List.flatMap_append]
      exact (MethodPool.grows_merge (grows_methods own l) pool).trans (grows_methodsInto own ls _)

end

namespace ClassTable

/-- Every method names the class that declares it as its owner. -/
def OwnsMethods (t : ClassTable) : Prop :=
  ∀ (c : ClassId) (decl : ClassDef), t.get? c = some decl → ∀ m ∈ decl.methods, m.owner = c

/-- A property of all classes of a table is one of its definitions with their places. -/
lemma forall_get_iff {t : ClassTable} (p : ClassId → ClassDef → Prop) :
    (∀ c : Fin t.defs.length, p c.val (t.defs.get c)) ↔
      ∀ c decl, t.get? c = some decl → p c decl := by
  constructor
  · intro h c decl hdecl
    obtain ⟨hc, rfl⟩ := List.getElem?_eq_some_iff.mp hdecl
    exact h ⟨c, hc⟩
  · intro h c
    exact h c.val _ (List.getElem?_eq_getElem c.isLt)

instance (t : ClassTable) : Decidable t.OwnsMethods :=
  decidable_of_iff (∀ c : Fin t.defs.length, ∀ m ∈ (t.defs.get c).methods, m.owner = c.val)
    (forall_get_iff fun c decl => ∀ m ∈ decl.methods, m.owner = c)

/-- The class declares a method of the name that its subclasses inherit. -/
def Offers (t : ClassTable) (c : ClassId) (name : String) (isAbstract : Bool) : Prop :=
  ∃ m ∈ t.heritableMethods c, m.isNamed name = true ∧ m.isAbstract = isAbstract

/-- The class is left with an abstract method of the name to implement. -/
structure Owes (t : ClassTable) (id : ClassId) (name : String) : Prop where
  /-- Some proper ancestor asks for the method, … -/
  asked : ∃ c, c ≠ id ∧ t.Descends id c ∧ t.Offers c name true
  /-- … no proper ancestor has it, … -/
  unmet : ∀ c, c ≠ id → t.Descends id c → ¬ t.Offers c name false
  /-- … the class itself passes none on, … -/
  undeclared : ∀ m ∈ t.heritableMethods id, m.isNamed name = false
  /-- … and does not implement it. -/
  unwritten : ∀ decl, t.get? id = some decl →
    ∀ m ∈ decl.methods, m.isNamed name = true → m.isAbstract = true

lemma mem_heritableMethods {t : ClassTable} {c : ClassId} {m : Method} :
    m ∈ t.heritableMethods c ↔
      ∃ decl, t.get? c = some decl ∧ m ∈ decl.methods ∧ m.isHeritable = true := by
  cases h : t.get? c <;> simp [heritableMethods, h]

lemma OwnsMethods.owner_eq {t : ClassTable} (ht : t.OwnsMethods) {c : ClassId} {m : Method}
    (hm : m ∈ t.heritableMethods c) : m.owner = c := by
  obtain ⟨decl, hdecl, hm, -⟩ := mem_heritableMethods.mp hm
  exact ht c decl hdecl m hm

/-- The methods on the walks into the parents are those of the proper ancestors. -/
lemma mem_offers_ancestry {t : ClassTable} {id : ClassId} {m : Method} :
    m ∈ Lineage.offers t.heritableMethods (t.ancestry id) ↔
      ∃ c, c ≠ id ∧ t.Descends id c ∧ m ∈ t.heritableMethods c := by
  simp only [Lineage.offers, List.mem_flatMap, mem_ancestry_iff, and_assoc]

/-! ### Inherited methods -/

/-- The methods collected for a class: its own are settled before the walk. -/
def methodPool (t : ClassTable) (id : ClassId) : MethodPool :=
  Lineage.methodsInto t.heritableMethods { settled := t.heritableMethods id } (t.ancestry id)

lemma grows_methodPool (t : ClassTable) (id : ClassId) :
    MethodPool.Grows { settled := t.heritableMethods id }
      (Lineage.offers t.heritableMethods (t.ancestry id)) (t.methodPool id) :=
  Lineage.grows_methodsInto _ _ _

lemma mem_inheritedMethods {t : ClassTable} {id : ClassId} {m : Method} :
    m ∈ t.inheritedMethods id ↔
      (m ∈ (t.methodPool id).settled ∧ m.owner ≠ id) ∨ m ∈ (t.methodPool id).pending := by
  rw [inheritedMethods, mem_sortByName, List.mem_append, List.mem_filter, bne_iff_ne]
  rfl

/-- The inherited abstract methods are those kept on the walk: the ancestors' methods that the
class does not hide. -/
lemma mem_inherited_abstract {t : ClassTable} (ht : t.OwnsMethods) {id : ClassId} {m : Method}
    (ha : m.isAbstract = true) :
    m ∈ t.inheritedMethods id ↔ m ∈ (t.methodPool id).pending := by
  rw [mem_inheritedMethods, or_iff_right_iff_imp]
  rintro ⟨hm, howner⟩
  rcases (t.grows_methodPool id).settled_of m hm with hm | ⟨-, hc⟩
  · exact absurd (ht.owner_eq hm) howner
  · exact absurd (ha.symm.trans hc) (by simp)

/-- A class inherits a concrete method of a name that it does not declare exactly if a proper
ancestor offers one. -/
lemma inherits_concrete_iff {t : ClassTable} (ht : t.OwnsMethods) {id : ClassId} {name : String}
    (hown : ∀ m ∈ t.heritableMethods id, m.isNamed name = false) :
    (∃ m ∈ t.inheritedMethods id, m.isNamed name = true ∧ m.isAbstract = false) ↔
      ∃ c, c ≠ id ∧ t.Descends id c ∧ t.Offers c name false := by
  have hgrows := t.grows_methodPool id
  constructor
  · rintro ⟨m, hm, hname, hc⟩
    have hmet : m ∈ Lineage.offers t.heritableMethods (t.ancestry id) := by
      rcases mem_inheritedMethods.mp hm with ⟨hm, howner⟩ | hm
      · rcases hgrows.settled_of m hm with hm | hm
        · exact absurd (ht.owner_eq hm) howner
        · exact hm.1
      · exact ((hgrows.pending_of m hm).resolve_left (by simp)).1
    obtain ⟨c, hne, hd, hm⟩ := mem_offers_ancestry.mp hmet
    exact ⟨c, hne, hd, m, hm, hname, hc⟩
  · rintro ⟨c, hne, hd, m, hm, hname, hc⟩
    have hmet := mem_offers_ancestry.mpr ⟨c, hne, hd, hm⟩
    obtain ⟨k, hk, hkname⟩ := (hgrows.settles_iff name).mpr (Or.inr ⟨m, hmet, hname, hc⟩)
    -- the settled method is not the class's own, so it comes from an ancestor
    rcases hgrows.settled_of k hk with hown' | ⟨hmet', hkc⟩
    · exact absurd (hown k hown') (by simp [hkname])
    · obtain ⟨c', hne', -, hk'⟩ := mem_offers_ancestry.mp hmet'
      have howner : k.owner ≠ id := by
        rw [ht.owner_eq hk']
        exact hne'
      exact ⟨k, mem_inheritedMethods.mpr (Or.inl ⟨hk, howner⟩), hkname, hkc⟩

/-! ### One method of each name -/

/-- What is done with one abstract method: it is left out if its name is implemented or was met
before. -/
def addMissing (isImplemented : String → Bool) (missing : List Method) (m : Method) :
    List Method :=
  if isImplemented m.name || missing.any (·.isNamed m.name) then missing else missing ++ [m]

/-- A name is missing in the end if it was before or an abstract method of the name is not
implemented. -/
lemma exists_foldl_addMissing {isImplemented : String → Bool} {name : String}
    (hcongr : ∀ m : Method, m.isNamed name = true → isImplemented m.name = isImplemented name)
    (ms missing : List Method) :
    (∃ m ∈ ms.foldl (addMissing isImplemented) missing, m.isNamed name = true) ↔
      (∃ m ∈ missing, m.isNamed name = true) ∨
        (isImplemented name = false ∧ ∃ m ∈ ms, m.isNamed name = true) := by
  induction ms generalizing missing with
  | nil => simp
  | cons m ms ih =>
      have hstep : (∃ k ∈ addMissing isImplemented missing m, k.isNamed name = true) ↔
          (∃ k ∈ missing, k.isNamed name = true) ∨
            (isImplemented name = false ∧ m.isNamed name = true) := by
        rw [addMissing]
        by_cases hname : m.isNamed name = true
        · have hany : missing.any (·.isNamed m.name) = true ↔
              ∃ k ∈ missing, k.isNamed name = true := by
            simp only [List.any_eq_true, Method.isNamed_congr hname]
          rw [hcongr m hname]
          split
          case isTrue h =>
              rw [Bool.or_eq_true, hany] at h
              rcases h with h | h <;> simp [h]
          case isFalse h =>
              simp only [Bool.or_eq_true, not_or, Bool.not_eq_true] at h
              simp [or_and_right, exists_or, hname, h.1]
        · split <;> simp [or_and_right, exists_or, hname]
      rw [List.foldl_cons, ih, hstep, List.exists_mem_cons_iff, or_assoc, ← and_or_left]

/-- No two of the missing methods have the same name. -/
lemma pairwise_foldl_addMissing {isImplemented : String → Bool} {ms : List Method} (missing : List Method)
    (h : missing.Pairwise fun m k => m.isNamed k.name = false) :
    (ms.foldl (addMissing isImplemented) missing).Pairwise
      fun m k => m.isNamed k.name = false := by
  induction ms generalizing missing with
  | nil => exact h
  | cons m ms ih =>
      rw [List.foldl_cons]
      refine ih _ ?_
      rw [addMissing]
      split
      case isTrue => exact h
      case isFalse hnew =>
          rw [List.pairwise_append]
          refine ⟨h, List.pairwise_singleton _ _, fun k hk m' hm' => ?_⟩
          rw [List.mem_singleton.mp hm']
          by_contra hname
          exact hnew (by simpa using Or.inr ⟨k, hk, by simpa using hname⟩)

/-- Of methods with different names at most one has a given name. -/
lemma countP_isNamed_le_one {ms : List Method} {name : String}
    (h : ms.Pairwise fun m k => m.isNamed k.name = false) :
    ms.countP (·.isNamed name) ≤ 1 := by
  induction h with
  | nil => simp
  | @cons m ms hm _ ih =>
      rw [List.countP_cons]
      by_cases hname : m.isNamed name = true
      · have hnone : ms.countP (·.isNamed name) = 0 := by
          rw [List.countP_eq_zero]
          intro k hk hkname
          have hkm := hm k hk
          rw [Method.isNamed_congr hkname, hname] at hkm
          exact absurd hkm (by simp)
        simp [hname, hnone]
      · simpa [hname] using ih

/-! ### Unimplemented methods -/

/-- Whether a class or what it inherits implements a name. -/
def isImplemented (t : ClassTable) (id : ClassId) (decl : ClassDef) (name : String) : Bool :=
  decl.methods.any (fun m => m.isNamed name && !m.isAbstract)
    || (t.inheritedMethods id).any (fun m => m.isNamed name && !m.isAbstract)

lemma unimplemented_eq {t : ClassTable} {id : ClassId} {decl : ClassDef}
    (hdecl : t.get? id = some decl) (hinst : decl.hasInstances = true) :
    t.unimplemented id = ((t.inheritedMethods id).filter (·.isAbstract)).foldl
      (addMissing (t.isImplemented id decl)) [] := by
  rw [unimplemented, hdecl]
  exact if_pos hinst

lemma isImplemented_congr {t : ClassTable} {id : ClassId} {decl : ClassDef} {m : Method}
    {name : String} (hm : m.isNamed name = true) :
    t.isImplemented id decl m.name = t.isImplemented id decl name := by
  rw [isImplemented, isImplemented]
  simp only [Method.isNamed_congr hm]

lemma isImplemented_eq_false_iff {t : ClassTable} {id : ClassId} {decl : ClassDef}
    {name : String} :
    t.isImplemented id decl name = false ↔
      (∀ m ∈ decl.methods, m.isNamed name = true → m.isAbstract = true) ∧
        ¬ ∃ m ∈ t.inheritedMethods id, m.isNamed name = true ∧ m.isAbstract = false := by
  simp [isImplemented]

/-- A class owes a name exactly if it inherits an abstract method of the name and neither it nor
what it inherits implements the name. -/
lemma owes_iff {t : ClassTable} (ht : t.OwnsMethods) {id : ClassId} {decl : ClassDef}
    (hdecl : t.get? id = some decl) {name : String} :
    t.Owes id name ↔ t.isImplemented id decl name = false ∧
      ∃ m ∈ t.inheritedMethods id, m.isNamed name = true ∧ m.isAbstract = true := by
  have hgrows := t.grows_methodPool id
  rw [isImplemented_eq_false_iff]
  constructor
  · intro h
    have hconcrete : ¬ ∃ m ∈ t.inheritedMethods id,
        m.isNamed name = true ∧ m.isAbstract = false := by
      rw [inherits_concrete_iff ht h.undeclared]
      rintro ⟨c, hne, hd, hc⟩
      exact h.unmet c hne hd hc
    refine ⟨⟨h.unwritten decl hdecl, hconcrete⟩, ?_⟩
    obtain ⟨c, hne, hd, m, hm, hname, ha⟩ := h.asked
    refine ⟨m, (mem_inherited_abstract ht ha).mpr ?_, hname, ha⟩
    -- nothing settles the name, so the walk keeps the method
    refine (hgrows.kept m (mem_offers_ancestry.mpr ⟨c, hne, hd, hm⟩) ha).resolve_right ?_
    rw [MethodPool.Settles.congr hname, hgrows.settles_iff]
    rintro (⟨k, hk, hkname⟩ | ⟨k, hk, hkname, hkc⟩)
    · exact absurd (h.undeclared k hk) (by simp [hkname])
    · obtain ⟨c', hne', hd', hk'⟩ := mem_offers_ancestry.mp hk
      exact h.unmet c' hne' hd' ⟨k, hk', hkname, hkc⟩
  · rintro ⟨⟨hwritten, hconcrete⟩, m, hm, hname, ha⟩
    obtain ⟨hmet, -, hfree⟩ :=
      (hgrows.pending_of m ((mem_inherited_abstract ht ha).mp hm)).resolve_left (by simp)
    obtain ⟨c, hne, hd, hmc⟩ := mem_offers_ancestry.mp hmet
    -- a method of the class itself would have hidden the one that was kept
    have hown : ∀ k ∈ t.heritableMethods id, k.isNamed name = false := by
      intro k hk
      rw [← Bool.not_eq_true]
      intro hkname
      exact hfree ((MethodPool.Settles.congr hname).mpr ⟨k, hk, hkname⟩)
    refine ⟨⟨c, hne, hd, m, hmc, hname, ha⟩, ?_, hown, ?_⟩
    · intro c' hne' hd' hc'
      exact hconcrete ((inherits_concrete_iff ht hown).mpr ⟨c', hne', hd', hc'⟩)
    · intro decl' hdecl'
      rw [hdecl] at hdecl'
      rw [← Option.some.inj hdecl']
      exact hwritten

/-- **The unimplemented methods do not depend on the order of the walk.** A name, in any case, is
among those of an instantiable class exactly if the class owes it, and then it is there once. -/
theorem unimplemented_iff_owes {t : ClassTable} (ht : t.OwnsMethods) {id : ClassId}
    {decl : ClassDef} (hdecl : t.get? id = some decl) (hinst : decl.hasInstances = true)
    (name : String) :
    ((∃ m ∈ t.unimplemented id, m.isNamed name = true) ↔ t.Owes id name) ∧
      (t.Owes id name → (t.unimplemented id).countP (·.isNamed name) = 1) := by
  have hiff : (∃ m ∈ t.unimplemented id, m.isNamed name = true) ↔ t.Owes id name := by
    rw [unimplemented_eq hdecl hinst, exists_foldl_addMissing fun m => isImplemented_congr,
      owes_iff ht hdecl]
    simp only [List.mem_filter, List.not_mem_nil, false_and, exists_false, false_or, and_assoc]
    exact and_congr_right fun _ => exists_congr fun m => and_congr_right fun _ => and_comm
  refine ⟨hiff, fun howes => ?_⟩
  have hle : (t.unimplemented id).countP (·.isNamed name) ≤ 1 := by
    rw [unimplemented_eq hdecl hinst]
    exact countP_isNamed_le_one (pairwise_foldl_addMissing _ List.Pairwise.nil)
  have hpos : 0 < (t.unimplemented id).countP (·.isNamed name) := by
    rw [List.countP_pos_iff]
    exact hiff.mpr howes
  omega

/-- A circle is a drawable shape: two of its three supertypes derive from the third, and a link of
the drawable leads back to the circle. Both interfaces ask to draw; the area is implemented by the
extended class. -/
def circles : ClassTable where
  defs :=
    [{ name := "Shape", isInterface := true, position := default,
       methods :=
        [{ name := "Draw", isAbstract := true, owner := 0, position := default },
          { name := "area", isAbstract := true, owner := 0, position := default }] },
      { name := "Drawable", isInterface := true, interfaces := [0, 3], position := default,
        methods := [{ name := "draw", isAbstract := true, owner := 1, position := default }] },
      { name := "Base", isAbstract := true, interfaces := [0], position := default,
        methods := [{ name := "Area", owner := 2, position := default }] },
      { name := "Circle", superclass := some 2, interfaces := [1, 0], position := default }]

/-- The circle owes the drawing, once, and not the area. -/
theorem circles_owes_draw :
    circles.OwnsMethods ∧ circles.Owes 3 "DRAW" ∧
      (circles.unimplemented 3).countP (·.isNamed "DRAW") = 1 ∧ ¬ circles.Owes 3 "AREA" := by
  have ht : circles.OwnsMethods := by decide
  have hdraw := @unimplemented_iff_owes circles ht 3 _ rfl rfl "DRAW"
  have harea := @unimplemented_iff_owes circles ht 3 _ rfl rfl "AREA"
  have howes : circles.Owes 3 "DRAW" := hdraw.1.mp (by decide +kernel)
  exact ⟨ht, howes, hdraw.2 howes, fun h => absurd (harea.1.mpr h) (by decide +kernel)⟩

end ClassTable

end ScriptCheck
