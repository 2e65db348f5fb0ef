import Mathlib.Logic.Relation
import Mathlib.Tactic
import ScriptCheck.Class.Lineage

/-!
Walks through the class table reach exactly the ancestors of a class.

The walks are computed with a bound on their depth. `Walked` is the same walk without one: a start
that was visited is passed over, any other is entered, and the walks into its parents come before
the rest of the starts. In a table with cycles nothing in these rules says that they come to an end;
they do, since a path of the walk enters no class twice, and so the bound `size + 1` cuts nothing off
(`walked_iff_eq_walks`). What holds of the walks is proved by induction on the rules.

* `Descends`: the second class is reached from the first by parent links. The table may have cycles
  and diamonds, and links out of the table.
* `mem_reachable_iff`: a walk enters exactly the classes that one of its starts descends from.
  The two halves are `Walked.descends`, every class entered is an ancestor, and
  `Walked.parents_subset`, the parents of the classes visited are visited too.
* `isSubclass_iff`: hence being a subclass is `Descends`, and is transitive.
* `mem_ancestry_iff`: the walks into the parents of a class, on which its inherited members are
  collected, enter exactly its ancestors other than itself, also where a cycle leads back to it.
-/

namespace ScriptCheck.ClassTable

/-! ### Parent links -/

/-- The second class is a direct supertype of the first. -/
def HasParent (t : ClassTable) (id parent : ClassId) : Prop :=
  parent ∈ t.parents id

/-- The second class is reached from the first by parent links, by none if they are the same. -/
def Descends (t : ClassTable) : ClassId → ClassId → Prop :=
  Relation.ReflTransGen t.HasParent

/-- A number that is not in the table has no parents. -/
lemma parents_eq_nil {t : ClassTable} {id : ClassId} (h : t.size ≤ id) : t.parents id = [] := by
  have hget : t.get? id = none := List.getElem?_eq_none h
  rw [parents, hget]
  rfl

/-! ### One step of a walk -/

/-- What a walk does with one start: it enters the class unless it was visited before. -/
def enter (t : ClassTable) (depth : Nat) (found : List Lineage × List ClassId) (id : ClassId) :
    List Lineage × List ClassId :=
  if found.2.contains id then found
  else
    (found.1 ++ [.node id (t.walks depth (id :: found.2) (t.parents id)).1],
      (t.walks depth (id :: found.2) (t.parents id)).2)

lemma walks_succ (t : ClassTable) (depth : Nat) (visited starts : List ClassId) :
    t.walks (depth + 1) visited starts = starts.foldl (t.enter depth) ([], visited) := rfl

lemma walks_nil (t : ClassTable) (depth : Nat) (visited : List ClassId) :
    t.walks depth visited [] = ([], visited) := by
  cases depth <;> rfl

lemma enter_of_mem {t : ClassTable} {depth : Nat} {found : List Lineage × List ClassId}
    {id : ClassId} (h : id ∈ found.2) : t.enter depth found id = found := by
  rw [enter, if_pos (List.contains_iff_mem.mpr h)]

lemma enter_of_not_mem {t : ClassTable} {depth : Nat} {found : List Lineage × List ClassId}
    {id : ClassId} (h : id ∉ found.2) :
    t.enter depth found id =
      (found.1 ++ [.node id (t.walks depth (id :: found.2) (t.parents id)).1],
        (t.walks depth (id :: found.2) (t.parents id)).2) := by
  rw [enter, if_neg fun hc => h (List.contains_iff_mem.mp hc)]

/-! ### The walk without a bound on its depth -/

/-- The walks from the starts in turn, and the classes visited after them. -/
inductive Walked (t : ClassTable) :
    List ClassId → List ClassId → List Lineage × List ClassId → Prop
  | done {visited : List ClassId} : Walked t visited [] ([], visited)
  | pass {visited starts : List ClassId} {id : ClassId} {found : List Lineage × List ClassId} :
      id ∈ visited → Walked t visited starts found → Walked t visited (id :: starts) found
  | enter {visited starts : List ClassId} {id : ClassId} {parents : List Lineage}
      {between : List ClassId} {found : List Lineage × List ClassId} :
      id ∉ visited → Walked t (id :: visited) (t.parents id) (parents, between) →
      Walked t between starts found →
      Walked t visited (id :: starts) (.node id parents :: found.1, found.2)

variable {t : ClassTable}

/-- The rules leave no choice. -/
lemma Walked.unique {visited starts : List ClassId} {found found' : List Lineage × List ClassId}
    (h : t.Walked visited starts found) (h' : t.Walked visited starts found') :
    found = found' := by
  induction h generalizing found' with
  | done =>
      cases h' with
      | done => rfl
  | pass hid _ ih =>
      cases h' with
      | pass _ h' => exact ih h'
      | enter hid' _ _ => exact absurd hid hid'
  | enter hid _ _ ihparents ihstarts =>
      cases h' with
      | pass hid' _ => exact absurd hid' hid
      | enter _ hparents hstarts =>
          cases ihparents hparents
          rw [ihstarts hstarts]

/-- What was visited before a walk is visited after it. -/
lemma Walked.subset {visited starts : List ClassId} {found : List Lineage × List ClassId}
    (h : t.Walked visited starts found) : visited ⊆ found.2 := by
  induction h with
  | done => exact List.Subset.refl _
  | pass _ _ ih => exact ih
  | enter _ _ _ ihparents ihstarts =>
      exact fun c hc => ihstarts (ihparents (List.mem_cons_of_mem _ hc))

/-! ### The bound cuts nothing off -/

/-- The number of classes of the table that were not visited. -/
def unvisited (t : ClassTable) (visited : List ClassId) : Nat :=
  ((Finset.range t.size).filter (· ∉ visited)).card

lemma unvisited_le_of_subset {v w : List ClassId} (h : v ⊆ w) :
    t.unvisited w ≤ t.unvisited v := by
  refine Finset.card_le_card fun c hc => ?_
  obtain ⟨hlt, hw⟩ := Finset.mem_filter.mp hc
  exact Finset.mem_filter.mpr ⟨hlt, fun hv => hw (h hv)⟩

lemma unvisited_cons_lt {id : ClassId} {visited : List ClassId}
    (hid : id < t.size) (hv : id ∉ visited) :
    t.unvisited (id :: visited) < t.unvisited visited := by
  refine Finset.card_lt_card ⟨fun c hc => ?_, fun hsub => ?_⟩
  · obtain ⟨hlt, hw⟩ := Finset.mem_filter.mp hc
    exact Finset.mem_filter.mpr ⟨hlt, fun hv => hw (by simp [hv])⟩
  · have hmem := hsub (Finset.mem_filter.mpr ⟨Finset.mem_range.mpr hid, hv⟩)
    exact (Finset.mem_filter.mp hmem).2 (by simp)

lemma unvisited_le_size (t : ClassTable) (visited : List ClassId) :
    t.unvisited visited ≤ t.size := by
  calc t.unvisited visited ≤ (Finset.range t.size).card := Finset.card_filter_le _ _
    _ = t.size := Finset.card_range _

/-- The starts in turn, from any trees found so far, if the walks into parents follow the rules. -/
lemma walked_foldl_enter {depth : Nat} {visited : List ClassId}
    (hparents : ∀ (id : ClassId) (seen : List ClassId), visited ⊆ seen → id ∉ seen →
      t.Walked (id :: seen) (t.parents id) (t.walks depth (id :: seen) (t.parents id)))
    (starts : List ClassId) (found : List Lineage × List ClassId) (hsub : visited ⊆ found.2) :
    ∃ later, t.Walked found.2 starts later ∧
      starts.foldl (t.enter depth) found = (found.1 ++ later.1, later.2) := by
  induction starts generalizing found with
  | nil => exact ⟨([], found.2), .done, by simp⟩
  | cons id starts ih =>
      rw [List.foldl_cons]
      by_cases hid : id ∈ found.2
      · rw [enter_of_mem hid]
        obtain ⟨later, hlater, heq⟩ := ih found hsub
        exact ⟨later, .pass hid hlater, heq⟩
      · rw [enter_of_not_mem hid]
        have hinto := hparents id found.2 hsub hid
        obtain ⟨later, hlater, heq⟩ :=
          ih (found.1 ++ [.node id (t.walks depth (id :: found.2) (t.parents id)).1], _)
            fun c hc => hinto.subset (List.mem_cons_of_mem _ (hsub hc))
        exact ⟨_, .enter hid hinto hlater, by rw [heq]; simp⟩

/-- With depth enough for the classes that are left, the bound cuts nothing off. -/
lemma walked_walks (depth : Nat) (visited starts : List ClassId)
    (hdepth : t.unvisited visited < depth) :
    t.Walked visited starts (t.walks depth visited starts) := by
  induction depth generalizing visited starts with
  | zero => omega
  | succ depth ih =>
      have hparents : ∀ (id : ClassId) (seen : List ClassId), visited ⊆ seen → id ∉ seen →
          t.Walked (id :: seen) (t.parents id) (t.walks depth (id :: seen) (t.parents id)) := by
        intro id seen hsub hid
        by_cases hlt : id < t.size
        · -- one class fewer is left to visit
          refine ih _ _ ?_
          have hfewer := unvisited_cons_lt hlt hid
          have hleft : t.unvisited seen ≤ t.unvisited visited := unvisited_le_of_subset hsub
          omega
        · rw [parents_eq_nil (Nat.le_of_not_lt hlt), walks_nil]
          exact .done
      obtain ⟨later, hlater, heq⟩ :=
        walked_foldl_enter hparents starts ([], visited) (List.Subset.refl _)
      rw [walks_succ, heq]
      exact hlater

/-- The walk comes to an end, cycles or not, and its result is the one computed. -/
lemma walked_iff_eq_walks {visited starts : List ClassId}
    {found : List Lineage × List ClassId} :
    t.Walked visited starts found ↔ found = t.walks (t.size + 1) visited starts := by
  have hwalked := walked_walks (t := t) (t.size + 1) visited starts
    (Nat.lt_succ_of_le (t.unvisited_le_size visited))
  constructor
  · exact fun h => h.unique hwalked
  · rintro rfl
    exact hwalked

/-! ### What a walk visits -/

/-- The classes visited after a walk are those visited before and those entered. -/
lemma Walked.mem_snd_iff {visited starts : List ClassId} {found : List Lineage × List ClassId}
    (h : t.Walked visited starts found) {c : ClassId} :
    c ∈ found.2 ↔ c ∈ visited ∨ c ∈ Lineage.classesOf found.1 := by
  induction h with
  | done => simp [Lineage.classesOf]
  | pass _ _ ih => exact ih
  | enter _ _ _ ihparents ihstarts =>
      rw [ihstarts, ihparents, List.mem_cons]
      simp only [Lineage.classesOf, Lineage.classes, List.mem_append, List.mem_cons]
      tauto

/-- A walk does not enter a class that was visited before it. -/
lemma Walked.not_mem_visited {visited starts : List ClassId}
    {found : List Lineage × List ClassId} (h : t.Walked visited starts found) {c : ClassId}
    (hc : c ∈ Lineage.classesOf found.1) : c ∉ visited := by
  induction h with
  | done => simp [Lineage.classesOf] at hc
  | pass _ _ ih => exact ih hc
  | enter hid hparents _ ihparents ihstarts =>
      rcases List.mem_append.mp hc with hc | hc
      · rcases List.mem_cons.mp hc with rfl | hc
        · exact hid
        · exact fun hv => ihparents hc (List.mem_cons_of_mem _ hv)
      · exact fun hv => ihstarts hc (hparents.subset (List.mem_cons_of_mem _ hv))

/-- A walk enters only ancestors of its starts. -/
lemma Walked.descends {visited starts : List ClassId} {found : List Lineage × List ClassId}
    (h : t.Walked visited starts found) {c : ClassId} (hc : c ∈ Lineage.classesOf found.1) :
    ∃ id ∈ starts, t.Descends id c := by
  induction h with
  | done => simp [Lineage.classesOf] at hc
  | pass _ _ ih =>
      obtain ⟨start, hstart, hd⟩ := ih hc
      exact ⟨start, List.mem_cons_of_mem _ hstart, hd⟩
  | enter _ _ _ ihparents ihstarts =>
      rcases List.mem_append.mp hc with hc | hc
      · rcases List.mem_cons.mp hc with rfl | hc
        · exact ⟨c, List.mem_cons_self, Relation.ReflTransGen.refl⟩
        · obtain ⟨parent, hparent, hd⟩ := ihparents hc
          exact ⟨_, List.mem_cons_self, Relation.ReflTransGen.head hparent hd⟩
      · obtain ⟨start, hstart, hd⟩ := ihstarts hc
        exact ⟨start, List.mem_cons_of_mem _ hstart, hd⟩

/-- The starts are visited after a walk. -/
lemma Walked.starts_subset {visited starts : List ClassId}
    {found : List Lineage × List ClassId} (h : t.Walked visited starts found) :
    starts ⊆ found.2 := by
  induction h with
  | done => exact List.nil_subset _
  | pass hid hstarts ih => exact List.cons_subset.mpr ⟨hstarts.subset hid, ih⟩
  | enter _ hparents hstarts _ ihstarts =>
      exact List.cons_subset.mpr
        ⟨hstarts.subset (hparents.subset List.mem_cons_self), ihstarts⟩

/-- With a class that a walk visits it visits the parents of the class. -/
lemma Walked.parents_subset {visited starts : List ClassId}
    {found : List Lineage × List ClassId} (h : t.Walked visited starts found) {c : ClassId}
    (hc : c ∈ found.2) (hnew : c ∉ visited) : t.parents c ⊆ found.2 := by
  induction h with
  | done => exact absurd hc hnew
  | pass _ _ ih => exact ih hc hnew
  | @enter _ _ id _ between _ _ hparents hstarts ihparents ihstarts =>
      by_cases hbetween : c ∈ between
      · -- it was the class entered here, or one on the way into its parents
        refine List.Subset.trans ?_ hstarts.subset
        by_cases heq : c = id
        · exact heq ▸ hparents.starts_subset
        · exact ihparents hbetween (List.not_mem_cons_of_ne_of_not_mem heq hnew)
      · exact ihstarts hc hbetween

/-- **A walk enters exactly the ancestors of its starts**, if nothing was visited before. -/
theorem mem_reachable_iff {starts : List ClassId} {c : ClassId} :
    c ∈ t.reachable starts ↔ ∃ id ∈ starts, t.Descends id c := by
  have hwalked : t.Walked [] starts _ := walked_iff_eq_walks.mpr rfl
  constructor
  · exact hwalked.descends
  · rintro ⟨id, hid, hc⟩
    have hvisited : c ∈ (t.walks (t.size + 1) [] starts).2 := by
      induction hc with
      | refl => exact hwalked.starts_subset hid
      | tail _ hp ih => exact hwalked.parents_subset ih List.not_mem_nil hp
    exact (hwalked.mem_snd_iff.mp hvisited).resolve_left List.not_mem_nil

/-! ### The walks into the parents of a class -/

lemma walked_ancestry (id : ClassId) :
    ∃ visited, t.Walked [id] (t.parents id) (t.ancestry id, visited) :=
  ⟨_, walked_iff_eq_walks.mpr rfl⟩

/-- **The walks into the parents of a class enter exactly its ancestors other than itself.** -/
theorem mem_ancestry_iff {id c : ClassId} :
    c ∈ Lineage.classesOf (t.ancestry id) ↔ c ≠ id ∧ t.Descends id c := by
  obtain ⟨visited, hwalked⟩ := t.walked_ancestry id
  constructor
  · intro h
    obtain ⟨parent, hparent, hc⟩ := hwalked.descends h
    have hnew := hwalked.not_mem_visited h
    exact ⟨by simpa using hnew, Relation.ReflTransGen.head hparent hc⟩
  · rintro ⟨hne, hc⟩
    have hvisited : c ∈ visited := by
      clear hne
      induction hc with
      | refl => exact hwalked.subset List.mem_cons_self
      | @tail b d _ hp ih =>
          -- the parents of the class itself are the starts
          by_cases hb : b = id
          · exact hwalked.starts_subset (hb ▸ hp)
          · exact hwalked.parents_subset ih (by simpa using hb) hp
    exact (hwalked.mem_snd_iff.mp hvisited).resolve_left (by simpa using hne)

/-! ### Subclasses -/

/-- A class is a subclass of exactly the classes that it descends from. -/
theorem isSubclass_iff {id ancestor : ClassId} :
    t.isSubclass id ancestor = true ↔ t.Descends id ancestor := by
  rw [isSubclass, List.contains_iff_mem, mem_reachable_iff]
  simp

lemma isSubclass_refl (t : ClassTable) (id : ClassId) : t.isSubclass id id = true :=
  isSubclass_iff.mpr Relation.ReflTransGen.refl

lemma isSubclass_trans {a b c : ClassId} (hab : t.isSubclass a b = true)
    (hbc : t.isSubclass b c = true) : t.isSubclass a c = true :=
  isSubclass_iff.mpr ((isSubclass_iff.mp hab).trans (isSubclass_iff.mp hbc))

end ScriptCheck.ClassTable
