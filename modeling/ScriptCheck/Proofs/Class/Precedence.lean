import ScriptCheck.Proofs.Class.Ancestors

/-!
The rule of precedence, and the walk that follows it.

In a table without cycles there is a plain rule for what a class hands down to its subclasses: its
own, or else what the first of its parents hands down that has something to hand down
(`handedDown`). A walk enters no class twice, so it does not follow this rule where two parents have
an ancestor in common. Still the first class in the order of the walk that has something has what
the rule gives (`Walked.firstIn_eq`): a class that is passed over because it was visited before hands
down nothing, as otherwise something would have been found then.
-/

namespace ScriptCheck

namespace ClassTable

/-! ### Tables without cycles -/

/-- The second class is reached from the first by at least one parent link. -/
def ProperAncestor (t : ClassTable) : ClassId → ClassId → Prop :=
  Relation.TransGen t.HasParent

/-- No class is an ancestor of itself. -/
def IsAcyclic (t : ClassTable) : Prop :=
  ∀ id, ¬ t.ProperAncestor id id

lemma properAncestor_iff {t : ClassTable} {id c : ClassId} :
    t.ProperAncestor id c ↔ ∃ parent ∈ t.parents id, t.Descends parent c :=
  Relation.TransGen.head'_iff

lemma isCyclic_iff {t : ClassTable} {id : ClassId} :
    t.isCyclic id = true ↔ t.ProperAncestor id id := by
  rw [isCyclic, List.contains_iff_mem, mem_reachable_iff, properAncestor_iff]

lemma lt_size_of_mem_parents {t : ClassTable} {id parent : ClassId} (h : parent ∈ t.parents id) :
    id < t.size := by
  by_contra hge
  rw [parents_eq_nil (Nat.le_of_not_lt hge)] at h
  exact List.not_mem_nil h

instance (t : ClassTable) : Decidable t.IsAcyclic :=
  decidable_of_iff (∀ id : Fin t.size, t.isCyclic id = false) <| by
    constructor
    · intro h id hid
      obtain ⟨parent, hparent, -⟩ := properAncestor_iff.mp hid
      have hfree := h ⟨id, lt_size_of_mem_parents hparent⟩
      rw [isCyclic_iff.mpr hid] at hfree
      cases hfree
    · intro h id
      rw [Bool.eq_false_iff]
      exact fun hid => h id (isCyclic_iff.mp hid)

/-- The number of classes of the table that a class descends from. -/
def rank (t : ClassTable) (id : ClassId) : Nat :=
  ((Finset.range t.size).filter (t.isSubclass id · = true)).card

/-- A parent descends from fewer classes, since it does not descend from its child. -/
lemma IsAcyclic.rank_lt {t : ClassTable} (ht : t.IsAcyclic) {id parent : ClassId}
    (h : parent ∈ t.parents id) : t.rank parent < t.rank id := by
  refine Finset.card_lt_card ⟨fun c hc => ?_, fun hsub => ?_⟩
  · obtain ⟨hlt, hc⟩ := Finset.mem_filter.mp hc
    refine Finset.mem_filter.mpr ⟨hlt, isSubclass_iff.mpr ?_⟩
    exact Relation.ReflTransGen.head h (isSubclass_iff.mp hc)
  · have hself : id ∈ (Finset.range t.size).filter (t.isSubclass id · = true) :=
      Finset.mem_filter.mpr ⟨Finset.mem_range.mpr (lt_size_of_mem_parents h), isSubclass_refl t id⟩
    have hback := isSubclass_iff.mp (Finset.mem_filter.mp (hsub hself)).2
    exact ht id (Relation.TransGen.head' h hback)

lemma IsAcyclic.ne_and_descends_iff {t : ClassTable} (ht : t.IsAcyclic) {id c : ClassId} :
    (c ≠ id ∧ t.Descends id c) ↔ t.ProperAncestor id c := by
  constructor
  · rintro ⟨hne, hd⟩
    exact (Relation.reflTransGen_iff_eq_or_transGen.mp hd).resolve_left hne
  · intro h
    refine ⟨?_, h.to_reflTransGen⟩
    rintro rfl
    exact ht c h

/-! ### The rule of precedence -/

section Rule

variable {α : Type} {t : ClassTable} (ht : t.IsAcyclic) (own : ClassId → Option α)

/-- What a class hands down: its own, or else what the first of its parents hands down that has
something to hand down, the extended class before the interfaces. -/
def handedDown (ht : t.IsAcyclic) (own : ClassId → Option α) (id : ClassId) : Option α :=
  (own id).or ((t.parents id).attach.findSome? fun parent => handedDown ht own parent.1)
termination_by t.rank id
decreasing_by exact ht.rank_lt parent.2

/-- The rule without the proofs of membership. -/
lemma handedDown_eq (id : ClassId) :
    handedDown ht own id = (own id).or ((t.parents id).findSome? (handedDown ht own)) := by
  have hattach : (t.parents id).attach.findSome? (fun parent => handedDown ht own parent.1) =
      (t.parents id).findSome? (handedDown ht own) := by
    conv_rhs => rw [← List.attach_map_subtype_val (t.parents id), List.findSome?_map]
    rfl
  rw [handedDown, hattach]

/-- Where a class hands down nothing, neither do its ancestors. -/
lemma handedDown_eq_none {id c : ClassId} (h : handedDown ht own id = none)
    (hc : t.Descends id c) : handedDown ht own c = none := by
  induction hc with
  | refl => exact h
  | tail _ hp ih =>
      rw [handedDown_eq, Option.or_eq_none_iff, List.findSome?_eq_none_iff] at ih
      exact ih.2 _ hp

/-! ### The walk -/

/-- The first class in the order of some walks that has something, and what it has. -/
def firstIn (own : ClassId → Option α) (trees : List Lineage) : Option α :=
  (Lineage.classesOf trees).findSome? own

lemma firstIn_cons (id : ClassId) (parents trees : List Lineage) :
    firstIn own (.node id parents :: trees) =
      ((own id).or (firstIn own parents)).or (firstIn own trees) := by
  simp only [firstIn, Lineage.classesOf, Lineage.classes, List.findSome?_append,
    List.findSome?_cons]
  cases own id <;> rfl

/-- The rule gives nothing for the classes that were visited and that the starts lead to. -/
def PassesNothing (visited starts : List ClassId) : Prop :=
  ∀ c ∈ visited, ∀ s ∈ starts, t.Descends s c → handedDown ht own c = none

variable {ht own}

/-- Before a class is entered, it is visited itself, but its parents do not lead back to it. -/
lemma PassesNothing.parents {visited starts : List ClassId} {id : ClassId}
    (h : PassesNothing ht own visited (id :: starts)) :
    PassesNothing ht own (id :: visited) (t.parents id) := by
  intro c hc p hp hd
  rcases List.mem_cons.mp hc with rfl | hc
  · exact absurd (Relation.TransGen.head' hp hd) (ht c)
  · exact h c hc id (by simp) (Relation.ReflTransGen.head hp hd)

/-- After a class that hands down nothing, its ancestors are visited and hand down nothing. -/
lemma PassesNothing.entered {visited starts : List ClassId} {id : ClassId}
    {found : List Lineage × List ClassId} (h : PassesNothing ht own visited (id :: starts))
    (hparents : t.Walked (id :: visited) (t.parents id) found)
    (hid : handedDown ht own id = none) : PassesNothing ht own found.2 starts := by
  intro c hc s hs hd
  rcases hparents.mem_snd_iff.mp hc with hc | hc
  · rcases List.mem_cons.mp hc with rfl | hc
    · exact hid
    · exact h c hc s (List.mem_cons_of_mem _ hs) hd
  · obtain ⟨p, hp, hpc⟩ := hparents.descends hc
    exact handedDown_eq_none ht own hid (Relation.ReflTransGen.head hp hpc)

lemma PassesNothing.tail {visited starts : List ClassId} {id : ClassId}
    (h : PassesNothing ht own visited (id :: starts)) : PassesNothing ht own visited starts :=
  fun c hc s hs => h c hc s (List.mem_cons_of_mem _ hs)

/-- The first class in the order of a walk that has something has what the rule gives for the
starts, provided that the rule gives nothing for the classes visited before. -/
lemma Walked.firstIn_eq {visited starts : List ClassId} {found : List Lineage × List ClassId}
    (h : t.Walked visited starts found) (hpass : PassesNothing ht own visited starts) :
    firstIn own found.1 = starts.findSome? (handedDown ht own) := by
  induction h with
  | done => rfl
  | pass hid _ ih =>
      have hnone := hpass _ hid _ List.mem_cons_self Relation.ReflTransGen.refl
      rw [List.findSome?_cons, hnone]
      exact ih hpass.tail
  | @enter visited starts id parents between found _ hparents _ ihparents ihstarts =>
      -- entering a class shows what the class hands down
      have hadds : (own id).or (firstIn own parents) = handedDown ht own id := by
        rw [handedDown_eq, ← ihparents hpass.parents]
      rw [firstIn_cons, hadds, List.findSome?_cons]
      cases hhands : handedDown ht own id with
      | some _ => rfl
      | none => exact ihstarts (hpass.entered hparents hhands)

/-- On the walks into the parents of a class the first member met is the one of the rule. -/
lemma firstIn_ancestry (ht : t.IsAcyclic) (own : ClassId → Option α) (id : ClassId) :
    firstIn own (t.ancestry id) = (t.parents id).findSome? (handedDown ht own) := by
  obtain ⟨visited, hwalked⟩ := t.walked_ancestry id
  refine hwalked.firstIn_eq ?_
  intro c hc p hp hd
  rw [List.mem_singleton.mp hc] at hd
  exact absurd (Relation.TransGen.head' hp hd) (ht id)

end Rule

end ClassTable

end ScriptCheck
