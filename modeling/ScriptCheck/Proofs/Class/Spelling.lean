import Mathlib.Data.List.Sort
import Mathlib.Data.String.Basic
import ScriptCheck.Proofs.Class.Lookup

/-!
Abstract methods are looked up by their spelling.

Of the abstract methods of a name all are kept, in the order of the walk (`Lineage.holds_methods`),
but they are sorted before the search, and names that differ in case are not equal to the sort.

* `find?_sortByName_iff`: a search after sorting gives the first of those with the least name.
* `abstract_lookup_by_spelling`: hence an abstract method is the first by precedence of those
  spelled like it, and the first of all exactly if no other is spelled with a smaller name.
-/

namespace ScriptCheck

/-! ### A search after sorting -/

section Sorted

variable {α : Type} {name : α → String} {p : α → Bool} {l : List α} {m : α}

lemma nameLE_iff {a b : String} :
    nameLE a b = true ↔ toLex (Text.lowercase a, a) ≤ toLex (Text.lowercase b, b) := by
  simp [nameLE, Prod.Lex.toLex_le_toLex]

lemma sortByName_eq (name : α → String) (l : List α) :
    sortByName name l = l.insertionSort fun a b => nameLE (name a) (name b) = true := by
  rw [sortByName, List.insertionSort]
  congr 1
  funext m l
  induction l with
  | nil => rfl
  | cons k l ih => rw [insertByName, List.orderedInsert_cons, ih]

lemma pairwise_sortByName (name : α → String) (l : List α) :
    (sortByName name l).Pairwise fun a b => nameLE (name a) (name b) = true := by
  have htotal : Std.Total fun a b : α => nameLE (name a) (name b) = true :=
    ⟨fun a b => by simpa only [nameLE_iff] using le_total _ _⟩
  have htrans : IsTrans α fun a b => nameLE (name a) (name b) = true :=
    ⟨fun a b c => by simpa only [nameLE_iff] using le_trans⟩
  rw [sortByName_eq]
  exact List.pairwise_insertionSort _ l

/-- Sorting keeps the order of the members of one name. -/
lemma filter_sortByName (name : α → String) (p : α → Bool) (x : String) (l : List α) :
    (sortByName name l).filter (fun k => p k && name k == x) =
      l.filter fun k => p k && name k == x := by
  have halike : (l.filter fun k => p k && name k == x).Pairwise fun a b =>
      nameLE (name a) (name b) = true := by
    refine List.pairwise_of_forall_mem_list fun a ha b hb => ?_
    simp only [List.mem_filter, Bool.and_eq_true, beq_iff_eq] at ha hb
    rw [nameLE_iff, ha.2.2, hb.2.2]
  have hsub := (List.sublist_insertionSort halike List.filter_sublist).filter
    fun k => p k && name k == x
  rw [List.filter_filter, ← sortByName_eq] at hsub
  simp only [Bool.and_self] at hsub
  refine (hsub.eq_of_length ?_).symm
  rw [sortByName_eq]
  exact ((List.perm_insertionSort _ l).filter _).length_eq.symm

/-- A search after sorting gives the first of those with the least name. -/
lemma find?_sortByName_iff : (sortByName name l).find? p = some m ↔
    l.find? (fun k => p k && name k == name m) = some m ∧
      ∀ k ∈ l, p k = true → nameLE (name m) (name k) = true := by
  have hleast : ∀ m, (sortByName name l).find? p = some m →
      l.find? (fun k => p k && name k == name m) = some m ∧
        ∀ k ∈ l, p k = true → nameLE (name m) (name k) = true := by
    intro m h
    obtain ⟨hm, before, after, hsplit, hbefore⟩ := List.find?_eq_some_iff_append.mp h
    simp only [Bool.not_eq_true'] at hbefore
    constructor
    · rw [← List.head?_filter, ← filter_sortByName, List.head?_filter,
        List.find?_eq_some_iff_append]
      exact ⟨by simpa using hm, before, after, hsplit, fun k hk => by simp [hbefore k hk]⟩
    · intro k hk hp
      have hk : k ∈ sortByName name l := mem_sortByName.mpr hk
      have hsorted := pairwise_sortByName name l
      rw [hsplit, List.pairwise_append, List.pairwise_cons] at hsorted
      rw [hsplit, List.mem_append, List.mem_cons] at hk
      rcases hk with hk | rfl | hk
      · rw [hbefore k hk] at hp
        cases hp
      · exact nameLE_iff.mpr le_rfl
      · exact hsorted.2.1.1 k hk
  refine ⟨hleast m, fun ⟨hfind, hle⟩ => ?_⟩
  have hm := List.find?_some hfind
  rw [Bool.and_eq_true] at hm
  cases hk : (sortByName name l).find? p with
  | none =>
      refine absurd hm.1 (List.find?_eq_none.mp hk m (mem_sortByName.mpr ?_))
      exact List.mem_of_find?_eq_some hfind
  | some k =>
      -- neither name is smaller than the other, so both are found among the members of one name
      obtain ⟨hk, hk'⟩ := hleast k hk
      have hge := hle k (List.mem_of_find?_eq_some hk) (by simpa using List.find?_some hk)
      have hle := hk' m (List.mem_of_find?_eq_some hfind) hm.1
      have hname : name k = name m := congrArg Prod.snd
        (toLex_inj.mp (le_antisymm (nameLE_iff.mp hle) (nameLE_iff.mp hge)))
      rw [hname, hfind] at hk
      exact hk.symm

/-- A search is not affected by sorting exactly if what it finds has the least name. -/
lemma find?_sortByName_eq_iff : (sortByName name l).find? p = l.find? p ↔
    ∀ m ∈ l.find? p, ∀ k ∈ l, p k = true → nameLE (name m) (name k) = true := by
  constructor
  · intro h m hm
    exact (find?_sortByName_iff.mp (h.trans hm)).2
  · intro h
    cases hfind : l.find? p with
    | none =>
        simp only [List.find?_eq_none, mem_sortByName] at hfind ⊢
        exact hfind
    | some m =>
        refine find?_sortByName_iff.mpr ⟨?_, h m hfind⟩
        rw [List.find?_eq_some_iff_append] at hfind ⊢
        obtain ⟨hm, before, after, hsplit, hbefore⟩ := hfind
        refine ⟨by simpa using hm, before, after, hsplit, fun k hk => ?_⟩
        simp [by simpa using hbefore k hk]

end Sorted

/-! ### The abstract methods of a name -/

namespace MethodPool

variable {n : String} {pool other : MethodPool} {ms ks : List Method}

/-- No method of the name is settled, and those kept are those of the list, in its order. -/
structure Holds (n : String) (pool : MethodPool) (ms : List Method) : Prop where
  settled : pool.settled.filter (·.isNamed n) = []
  pending : pool.pending.filter (·.isNamed n) = ms.filter (·.isNamed n)

lemma Holds.add (h : pool.Holds n ks) {m : Method}
    (hm : m.isNamed n = true → m.isAbstract = true) : (pool.add m).Holds n (ks ++ [m]) := by
  have hother (hname : ¬ m.isNamed n = true) : ks.filter (·.isNamed n) =
      (ks ++ [m]).filter (·.isNamed n) := by simp [hname]
  rw [MethodPool.add]
  split_ifs with hsettled habstract
  · refine ⟨h.settled, h.pending.trans (hother fun hname => ?_)⟩
    obtain ⟨k, hk, hkname⟩ := List.any_eq_true.mp hsettled
    rw [Method.isNamed_congr hname] at hkname
    exact List.filter_eq_nil_iff.mp h.settled k hk hkname
  · exact ⟨h.settled, by rw [List.filter_append, h.pending, List.filter_append]⟩
  · have hname : ¬ m.isNamed n = true := fun hname => habstract (hm hname)
    exact ⟨by simp [h.settled, hname], h.pending.trans (hother hname)⟩

lemma Holds.foldl_add (h : pool.Holds n ks)
    (hms : ∀ m ∈ ms, m.isNamed n = true → m.isAbstract = true) :
    (ms.foldl MethodPool.add pool).Holds n (ks ++ ms) := by
  induction ms generalizing pool ks with
  | nil => rwa [List.append_nil]
  | cons m ms ih =>
      rw [List.foldl_cons, List.append_cons]
      exact ih (h.add (hms m List.mem_cons_self)) fun k hk => hms k (List.mem_cons_of_mem _ hk)

/-- The methods of another walk come after those of the pool. -/
lemma Holds.merge (h : pool.Holds n ks) (hother : other.Holds n ms)
    (hms : ∀ m ∈ ms, m.isNamed n = true → m.isAbstract = true) :
    (pool.merge other).Holds n (ks ++ ms) := by
  have hnone : other.settled.filter (·.isNamed n) = [] := hother.settled
  have hsettled : (other.settled.foldl MethodPool.add pool).Holds n (ks ++ other.settled) :=
    h.foldl_add fun m hm hname => absurd hname (List.filter_eq_nil_iff.mp hnone m hm)
  have hpending : ∀ m ∈ other.pending, m.isNamed n = true → m.isAbstract = true := by
    intro m hm hname
    have hmem : m ∈ other.pending.filter (·.isNamed n) := List.mem_filter.mpr ⟨hm, hname⟩
    rw [hother.pending] at hmem
    exact hms m (List.mem_filter.mp hmem).1 hname
  obtain ⟨hfree, hkept⟩ := hsettled.foldl_add hpending
  refine ⟨hfree, hkept.trans ?_⟩
  simp only [List.filter_append, hnone, hother.pending, List.append_nil]

end MethodPool

mutual

/-- If no method of the name is concrete, a walk keeps all of them, in its order. -/
lemma Lineage.holds_methods {own : ClassId → List Method} {n : String} : ∀ l : Lineage,
    (∀ m ∈ l.classes.flatMap own, m.isNamed n = true → m.isAbstract = true) →
    (l.methods own).Holds n (l.classes.flatMap own)
  | .node id parents, h => by
      rw [Lineage.classes, List.flatMap_cons] at h ⊢
      rw [Lineage.methods]
      have hstart : ({} : MethodPool).Holds n [] := ⟨rfl, rfl⟩
      refine holds_methodsInto parents (hstart.foldl_add fun m hm => ?_) fun m hm => ?_
      · exact h m (List.mem_append_left _ hm)
      · exact h m (List.mem_append_right _ hm)

lemma Lineage.holds_methodsInto {own : ClassId → List Method} {n : String} : ∀ (ls : List Lineage)
    {pool : MethodPool} {ks : List Method}, pool.Holds n ks →
    (∀ m ∈ Lineage.offers own ls, m.isNamed n = true → m.isAbstract = true) →
    (Lineage.methodsInto own pool ls).Holds n (ks ++ Lineage.offers own ls)
  | [], pool, ks, hpool, _ => by
      rw [Lineage.methodsInto]
      exact ⟨hpool.settled, by simp [hpool.pending, Lineage.offers, Lineage.classesOf]⟩
  | l :: ls, pool, ks, hpool, h => by
      rw [Lineage.offers, Lineage.classesOf, List.flatMap_append] at h ⊢
      have hfirst := fun m hm => h m (List.mem_append_left _ hm)
      rw [Lineage.methodsInto, ← List.append_assoc]
      exact holds_methodsInto ls (hpool.merge (holds_methods l hfirst) hfirst)
        fun m hm => h m (List.mem_append_right _ hm)

end

namespace ClassTable

/-! ### Looking up an abstract method -/

/-- The abstract method that passes a test and that the rule of precedence finds. -/
def abstractByPrecedence {t : ClassTable} (hacyclic : t.IsAcyclic) (p : Method → Bool)
    (id : ClassId) : Option Method :=
  (t.parents id).findSome? (handedDown hacyclic fun c =>
    (t.heritableMethods c).find? fun m => p m && m.isAbstract)

/-- No method of the name that an ancestor hands down is spelled with a smaller name. -/
def LeastSpelled (t : ClassTable) (id : ClassId) (name : String) (m : Method) : Prop :=
  ∀ c, t.ProperAncestor id c → ∀ k ∈ t.heritableMethods c, k.isNamed name = true →
    nameLE m.name k.name = true

/-- The inherited methods before they are sorted. -/
def keptMethods (t : ClassTable) (id : ClassId) : List Method :=
  (t.methodPool id).settled.filter (·.owner != id) ++ (t.methodPool id).pending

section Abstract

variable {t : ClassTable} {id : ClassId} {name : String}
  (hown : (t.get? id).bind (·.declaredMethod? name) = none)
  (habstract : ∀ m ∈ Lineage.offers t.heritableMethods (t.ancestry id), m.isNamed name = true →
    m.isAbstract = true)
include hown habstract

/-- Of the methods of the name all are kept, in the order of the walk. -/
lemma filter_keptMethods : (t.keptMethods id).filter (·.isNamed name) =
    (Lineage.offers t.heritableMethods (t.ancestry id)).filter (·.isNamed name) := by
  have hstart : ({ settled := t.heritableMethods id } : MethodPool).Holds name [] :=
    ⟨by simpa using heritable_of_undeclared hown, rfl⟩
  have hpool : (t.methodPool id).Holds name _ := Lineage.holds_methodsInto _ hstart habstract
  rw [keptMethods, List.filter_append, List.filter_comm, hpool.settled, hpool.pending]
  rfl

lemma mem_keptMethods_iff {k : Method} (hk : k.isNamed name = true) :
    k ∈ t.keptMethods id ↔ k ∈ Lineage.offers t.heritableMethods (t.ancestry id) := by
  have hmem := congrArg (k ∈ ·) (filter_keptMethods hown habstract)
  simpa only [List.mem_filter, hk, and_true, eq_iff_iff] using hmem

/-- A search that is not preceded by sorting follows the rule. -/
lemma find?_keptMethods (hacyclic : t.IsAcyclic) {p : Method → Bool}
    (hp : ∀ m, p m = true → m.isNamed name = true) :
    (t.keptMethods id).find? p = abstractByPrecedence hacyclic p id := by
  have hkept : (t.keptMethods id).filter p =
      (Lineage.offers t.heritableMethods (t.ancestry id)).filter fun m => p m && m.isAbstract := by
    have hnamed : ∀ l : List Method, (l.filter (·.isNamed name)).filter p = l.filter p := by
      intro l
      rw [List.filter_filter]
      refine List.filter_congr fun m _ => ?_
      cases hm : p m with
      | false => rfl
      | true => rw [hp m hm, Bool.and_self]
    rw [← hnamed, filter_keptMethods hown habstract, hnamed]
    refine List.filter_congr fun m hm => ?_
    cases hpm : p m with
    | false => rfl
    | true => rw [habstract m hm (hp m hpm), Bool.and_self]
  rw [← List.head?_filter, hkept, List.head?_filter, Lineage.offers, List.find?_flatMap,
    abstractByPrecedence, ← firstIn_ancestry]
  rfl

/-- There is no concrete method to look for first. -/
lemma method?_eq_find? :
    t.method? id name = (sortByName (·.name) (t.keptMethods id)).find? (·.isNamed name) := by
  have hnone : (t.inheritedMethods id).find? (fun m => m.isNamed name && !m.isAbstract) = none := by
    rw [List.find?_eq_none]
    intro m hm
    cases hname : m.isNamed name with
    | false => simp
    | true =>
        have hm : m ∈ t.keptMethods id := mem_sortByName.mp hm
        rw [mem_keptMethods_iff hown habstract hname] at hm
        simp [habstract m hm hname]
  simp only [method?, hown, hnone]
  rfl

lemma leastSpelled_iff (hacyclic : t.IsAcyclic) (m : Method) :
    (∀ k ∈ t.keptMethods id, k.isNamed name = true → nameLE m.name k.name = true) ↔
      t.LeastSpelled id name m := by
  constructor
  · intro h c hc k hk hname
    obtain ⟨hne, hd⟩ := hacyclic.ne_and_descends_iff.mpr hc
    refine h k ((mem_keptMethods_iff hown habstract hname).mpr ?_) hname
    exact mem_offers_ancestry.mpr ⟨c, hne, hd, hk⟩
  · intro h k hk hname
    rw [mem_keptMethods_iff hown habstract hname, mem_offers_ancestry] at hk
    obtain ⟨c, hne, hd, hk⟩ := hk
    exact h c (hacyclic.ne_and_descends_iff.mp ⟨hne, hd⟩) k hk hname

end Abstract

/-- **Abstract methods are looked up by their spelling.** Let a class without a method of the name
have no ancestor that hands down a concrete one. Then it is looked up as the abstract method that is
the first by precedence of those spelled like it, and no other has a smaller spelling. So it is the
first of all by precedence exactly if that one has the least spelling. -/
theorem abstract_lookup_by_spelling (t : ClassTable) (hacyclic : t.IsAcyclic) (id : ClassId)
    (name : String) (hown : (t.get? id).bind (·.declaredMethod? name) = none)
    (hconcrete : ∀ c, t.ProperAncestor id c → ∀ m ∈ t.heritableMethods c,
      m.implements name = false) :
    (∀ m, t.method? id name = some m ↔
      abstractByPrecedence hacyclic (fun k => k.isNamed name && k.name == m.name) id = some m ∧
        t.LeastSpelled id name m) ∧
    (t.method? id name = abstractByPrecedence hacyclic (·.isNamed name) id ↔
      ∀ m ∈ abstractByPrecedence hacyclic (·.isNamed name) id, t.LeastSpelled id name m) := by
  have habstract : ∀ m ∈ Lineage.offers t.heritableMethods (t.ancestry id),
      m.isNamed name = true → m.isAbstract = true := by
    intro m hm hname
    obtain ⟨c, hne, hd, hm⟩ := mem_offers_ancestry.mp hm
    have hnot := hconcrete c (hacyclic.ne_and_descends_iff.mp ⟨hne, hd⟩) m hm
    simpa [Method.implements, hname] using hnot
  have hleast := leastSpelled_iff hown habstract hacyclic
  rw [method?_eq_find? hown habstract]
  constructor
  · intro m
    rw [find?_sortByName_iff, hleast, find?_keptMethods hown habstract hacyclic]
    exact fun k hk => (Bool.and_eq_true_iff.mp hk).1
  · rw [← find?_keptMethods hown habstract hacyclic fun _ h => h, find?_sortByName_eq_iff]
    simp only [hleast]

/-- Two interfaces ask for one method in different spellings, and a host implements both. -/
def greeters : ClassTable where
  defs :=
    [{ name := "Polite", isInterface := true, position := default,
       methods := [{ name := "greet", isAbstract := true, owner := 0, position := default }] },
      { name := "Loud", isInterface := true, position := default,
        methods := [{ name := "Greet", isAbstract := true, owner := 1, position := default }] },
      { name := "Host", isAbstract := true, interfaces := [0, 1], position := default }]

theorem abstract_lookup_by_spelling_greeters :
    ∃ h : greeters.IsAcyclic, ∃ m, greeters.method? 2 "GREET" = some m ∧ m.owner = 1 ∧
      abstractByPrecedence h (fun k => k.isNamed "GREET" && k.name == m.name) 2 = some m ∧
      greeters.LeastSpelled 2 "GREET" m := by
  have h : greeters.IsAcyclic := by decide +kernel
  have hconcrete : ∀ c, greeters.ProperAncestor 2 c → ∀ m ∈ greeters.heritableMethods c,
      m.implements "GREET" = false := by
    have hall : ∀ decl ∈ greeters.defs, ∀ m ∈ decl.methods, m.implements "GREET" = false := by
      decide +kernel
    intro c _ m hm
    obtain ⟨decl, hdecl, hm, -⟩ := mem_heritableMethods.mp hm
    exact hall decl (List.mem_of_getElem? hdecl) m hm
  obtain ⟨m, hm, howner⟩ : ∃ m, greeters.method? 2 "GREET" = some m ∧ m.owner = 1 :=
    Option.map_eq_some_iff.mp (by decide +kernel)
  obtain ⟨hfirst, hleast⟩ :=
    ((abstract_lookup_by_spelling greeters h 2 "GREET" (by decide) hconcrete).1 m).mp hm
  exact ⟨h, m, hm, howner, hfirst, hleast⟩

/-- The host finds the method of the second interface, although that of the first has precedence. -/
theorem spelling_beats_precedence :
    ∃ h : greeters.IsAcyclic, (greeters.get? 2).bind (·.declaredMethod? "greet") = none ∧
      greeters.defs.all (·.methods.all (·.isAbstract)) = true ∧
      (abstractByPrecedence h (·.isNamed "greet") 2).map (·.owner) = some 0 ∧
      (greeters.method? 2 "greet").map (·.owner) = some 1 := by
  refine ⟨by decide +kernel, by decide, by decide, ?_, by decide +kernel⟩
  rw [abstractByPrecedence, ← firstIn_ancestry]
  decide +kernel

end ClassTable

end ScriptCheck
