import ScriptCheck.Analysis.Decl.Class
import ScriptCheck.Proofs.Class.Ancestors

/-!
Classes whose links lead to smaller numbers.

The classes that are known before a file is read are numbered so that parents come before their
children. Whatever a file declares after them, the walks from these classes stay the same, and so
does what is wrong with their inheritance.
-/

namespace ScriptCheck

/-! ### Methods met on a walk -/

mutual

lemma Lineage.methods_congr {own own' : ClassId → List Method} : ∀ l : Lineage,
    (∀ c ∈ l.classes, own' c = own c) → l.methods own' = l.methods own
  | .node id parents => by
      intro h
      rw [methods, methods, h id (by simp [classes])]
      exact methodsInto_congr parents _ fun c hc => h c (by simp [classes, hc])

lemma Lineage.methodsInto_congr {own own' : ClassId → List Method} :
    ∀ (ls : List Lineage) (pool : MethodPool), (∀ c ∈ classesOf ls, own' c = own c) →
      methodsInto own' pool ls = methodsInto own pool ls
  | [], _ => fun _ => by rw [methodsInto, methodsInto]
  | l :: ls, pool => by
      intro h
      rw [methodsInto, methodsInto, l.methods_congr fun c hc => h c (by simp [classesOf, hc])]
      exact methodsInto_congr ls _ fun c hc => h c (by simp [classesOf, hc])

end

namespace ClassTable

/-- Two tables have the same classes below a number, and links from these lead to smaller
numbers. -/
structure SameBelow (n : Nat) (t t' : ClassTable) : Prop where
  le_size : n ≤ t.size
  le_size' : n ≤ t'.size
  get? : ∀ id < n, t'.get? id = t.get? id
  links : ∀ id < n, ∀ parent ∈ t.parents id, parent < id

namespace SameBelow

variable {n : Nat} {t t' : ClassTable} {id : ClassId} (h : SameBelow n t t')
include h

lemma parents (hid : id < n) : t'.parents id = t.parents id := by
  rw [ClassTable.parents, ClassTable.parents, h.get? id hid]

lemma heritableMethods (hid : id < n) : t'.heritableMethods id = t.heritableMethods id := by
  rw [ClassTable.heritableMethods, ClassTable.heritableMethods, h.get? id hid]

/-- A walk is as deep as the numbers allow, so that a bound on its depth does not matter. -/
lemma walks {m depth depth' : Nat} {visited starts : List ClassId} (hm : m ≤ n)
    (hstarts : ∀ id ∈ starts, id < m) (hdepth : m < depth) (hdepth' : m < depth') :
    t'.walks depth' visited starts = t.walks depth visited starts := by
  induction depth generalizing m depth' visited starts with
  | zero => exact absurd hdepth (Nat.not_lt_zero m)
  | succ depth ih =>
      obtain ⟨depth', rfl⟩ := Nat.exists_eq_succ_of_ne_zero (Nat.ne_of_gt (Nat.zero_lt_of_lt hdepth'))
      rw [walks_succ, walks_succ]
      refine List.foldl_ext _ _ _ fun found id hid => ?_
      have hlt := hstarts id hid
      by_cases hmem : id ∈ found.2
      · rw [enter_of_mem hmem, enter_of_mem hmem]
      · rw [enter_of_not_mem hmem, enter_of_not_mem hmem, h.parents (hlt.trans_le hm),
          ih (hlt.le.trans hm) (h.links id (hlt.trans_le hm))
            (hlt.trans_le (Nat.le_of_lt_succ hdepth)) (hlt.trans_le (Nat.le_of_lt_succ hdepth'))]

lemma walksFrom {visited starts : List ClassId} (hstarts : ∀ id ∈ starts, id < n) :
    t'.walksFrom visited starts = t.walksFrom visited starts := by
  have hle := h.le_size
  have hle' := h.le_size'
  rw [ClassTable.walksFrom, ClassTable.walksFrom,
    h.walks le_rfl hstarts (Nat.lt_succ_of_le hle) (Nat.lt_succ_of_le hle')]

lemma lt_of_descends {c : ClassId} (hid : id < n) (hc : t.Descends id c) : c < n := by
  induction hc with
  | refl => exact hid
  | tail _ hparent ih => exact (h.links _ ih _ hparent).trans ih

lemma parents_lt (hid : id < n) : ∀ parent ∈ t.parents id, parent < n :=
  fun parent hparent => (h.links id hid parent hparent).trans hid

lemma isCyclic (hid : id < n) : t'.isCyclic id = t.isCyclic id := by
  rw [ClassTable.isCyclic, ClassTable.isCyclic, reachable, reachable, h.parents hid,
    h.walksFrom (h.parents_lt hid)]

lemma inheritedMethods (hid : id < n) : t'.inheritedMethods id = t.inheritedMethods id := by
  have hmethods (pool : MethodPool) : Lineage.methodsInto t'.heritableMethods pool (t.ancestry id) =
      Lineage.methodsInto t.heritableMethods pool (t.ancestry id) := by
    refine Lineage.methodsInto_congr _ _ fun c hc => h.heritableMethods ?_
    obtain ⟨_, hwalked⟩ := t.walked_ancestry id
    obtain ⟨parent, hparent, hc⟩ := hwalked.descends hc
    exact h.lt_of_descends (h.parents_lt hid parent hparent) hc
  have hancestry : t'.ancestry id = t.ancestry id := by
    rw [ancestry, ancestry, h.parents hid, h.walksFrom (h.parents_lt hid)]
  rw [ClassTable.inheritedMethods, ClassTable.inheritedMethods, hancestry, h.heritableMethods hid,
    hmethods]

lemma unimplemented (hid : id < n) : t'.unimplemented id = t.unimplemented id := by
  rw [ClassTable.unimplemented, ClassTable.unimplemented, h.get? id hid, h.inheritedMethods hid]

lemma superclassFaults (hid : id < n) {decl : ClassDef} (hdecl : t.get? id = some decl) :
    Check.superclassFaults t' decl = Check.superclassFaults t decl := by
  have hparents : decl.parents = t.parents id := by
    rw [ClassTable.parents, hdecl]
    rfl
  have hparent : decl.superclass.bind t'.get? = decl.superclass.bind t.get? := by
    cases hsuper : decl.superclass with
    | none => rfl
    | some parent =>
        refine h.get? parent (h.parents_lt hid parent ?_)
        rw [← hparents, ClassDef.parents, hsuper]
        simp
  rw [Check.superclassFaults, Check.superclassFaults, hparent]

lemma filterMap_interfaces (hid : id < n) {decl : ClassDef} (hdecl : t.get? id = some decl) :
    decl.interfaces.filterMap t'.get? = decl.interfaces.filterMap t.get? := by
  refine List.filterMap_congr fun parent hparent => h.get? parent (h.parents_lt hid parent ?_)
  rw [ClassTable.parents, hdecl]
  exact List.mem_append_right _ hparent

/-- If nothing is wrong with the inheritance of a class, what comes after it changes nothing. -/
lemma inheritanceFaults (hid : id < n) (hfaults : Check.inheritanceFaults t id = []) :
    Check.inheritanceFaults t' id = [] := by
  cases hdecl : t.get? id with
  | none => rw [Check.inheritanceFaults, h.get? id hid, hdecl]
  | some decl =>
      rw [Check.inheritanceFaults, hdecl] at hfaults
      rw [Check.inheritanceFaults, h.get? id hid, hdecl]
      simp only [h.isCyclic hid, h.superclassFaults hid hdecl, h.filterMap_interfaces hid hdecl,
        h.unimplemented hid]
      split_ifs at hfaults ⊢
      simp only [List.append_eq_nil_iff, List.map_eq_nil_iff] at hfaults ⊢
      exact hfaults

end SameBelow

end ClassTable

end ScriptCheck
