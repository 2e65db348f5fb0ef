/-!
Finite sets of natural numbers.

A set is the strictly ascending list of its members, so two sets with the same members are equal
(`NatSet.ext`) and the members come in ascending order. Exception sets are sets of class numbers,
and the jumps of a statement are sets of levels.
-/

namespace ScriptCheck

/-- A finite set of natural numbers, held as its members in strictly ascending order. -/
structure NatSet where
  elems : List Nat
  ascending : elems.Pairwise (· < ·)
  deriving DecidableEq

namespace NatSet

/-- Puts a number at its place in an ascending list, unless it is there. -/
def insertAsc (n : Nat) : List Nat → List Nat
  | [] => [n]
  | m :: rest =>
      if n < m then n :: m :: rest
      else if n = m then m :: rest
      else m :: insertAsc n rest

/-- The members after an insertion. -/
theorem mem_insertAsc {n k : Nat} {l : List Nat} : k ∈ insertAsc n l ↔ k = n ∨ k ∈ l := by
  induction l with
  | nil => simp [insertAsc]
  | cons m rest ih =>
      unfold insertAsc
      split
      · simp
      · split
        · next h => subst h; simp
        · simp only [List.mem_cons, ih]
          constructor
          · rintro (h | h | h) <;> simp [h]
          · rintro (h | h | h) <;> simp [h]

/-- An insertion keeps the list ascending. -/
theorem pairwise_insertAsc {n : Nat} {l : List Nat} (h : l.Pairwise (· < ·)) :
    (insertAsc n l).Pairwise (· < ·) := by
  induction l with
  | nil => simp [insertAsc]
  | cons m rest ih =>
      obtain ⟨hm, hrest⟩ := List.pairwise_cons.mp h
      unfold insertAsc
      split
      · next hlt =>
          refine List.pairwise_cons.mpr ⟨fun k hk => ?_, h⟩
          rcases List.mem_cons.mp hk with rfl | hk
          · exact hlt
          · exact Nat.lt_trans hlt (hm k hk)
      · split
        · exact h
        · next hlt hne =>
            refine List.pairwise_cons.mpr ⟨fun k hk => ?_, ih hrest⟩
            rcases mem_insertAsc.mp hk with rfl | hk
            · omega
            · exact hm k hk

/-- The empty set. -/
def empty : NatSet := ⟨[], List.Pairwise.nil⟩

instance : EmptyCollection NatSet := ⟨empty⟩

instance : Inhabited NatSet := ⟨empty⟩

instance : Membership Nat NatSet := ⟨fun s n => n ∈ s.elems⟩

instance (n : Nat) (s : NatSet) : Decidable (n ∈ s) :=
  inferInstanceAs (Decidable (n ∈ s.elems))

/-- The set with one more member. -/
def insert (n : Nat) (s : NatSet) : NatSet :=
  ⟨insertAsc n s.elems, pairwise_insertAsc s.ascending⟩

/-- The set of the numbers in a list. -/
def ofList (l : List Nat) : NatSet :=
  l.foldr insert empty

/-- The members of either set. -/
def union (s t : NatSet) : NatSet :=
  s.elems.foldr insert t

instance : Union NatSet := ⟨union⟩

/-- The members that pass a test. -/
def filter (p : Nat → Bool) (s : NatSet) : NatSet :=
  ⟨s.elems.filter p, s.ascending.filter p⟩

/-- Whether the set has no member. -/
def isEmpty (s : NatSet) : Bool :=
  s.elems.isEmpty

/-! ### Members of the results -/

/-- Membership is that in the list. -/
theorem mem_def {n : Nat} {s : NatSet} : n ∈ s ↔ n ∈ s.elems := Iff.rfl

@[simp] theorem not_mem_empty (n : Nat) : n ∉ (∅ : NatSet) := List.not_mem_nil

@[simp] theorem mem_insert {n k : Nat} {s : NatSet} : k ∈ s.insert n ↔ k = n ∨ k ∈ s :=
  mem_insertAsc

/-- Inserting the numbers of a list adds just these. -/
theorem mem_foldr_insert {k : Nat} {l : List Nat} {s : NatSet} :
    k ∈ l.foldr insert s ↔ k ∈ l ∨ k ∈ s := by
  induction l with
  | nil => simp
  | cons m rest ih => simp [ih, or_assoc]

@[simp] theorem mem_ofList {k : Nat} {l : List Nat} : k ∈ ofList l ↔ k ∈ l := by
  rw [ofList, mem_foldr_insert]
  exact or_iff_left List.not_mem_nil

@[simp] theorem mem_union {k : Nat} {s t : NatSet} : k ∈ s ∪ t ↔ k ∈ s ∨ k ∈ t :=
  mem_foldr_insert

@[simp] theorem mem_filter {k : Nat} {p : Nat → Bool} {s : NatSet} :
    k ∈ s.filter p ↔ k ∈ s ∧ p k = true :=
  List.mem_filter

/-- A set is empty if nothing is in it. -/
theorem isEmpty_iff {s : NatSet} : s.isEmpty = true ↔ ∀ n, n ∉ s := by
  rw [isEmpty, List.isEmpty_iff]
  constructor
  · intro h n hn
    rw [mem_def, h] at hn
    exact absurd hn List.not_mem_nil
  · intro h
    exact List.eq_nil_iff_forall_not_mem.mpr h

/-! ### Sets with the same members are equal -/

/-- Ascending lists with the same members are equal: their heads are the least members. -/
theorem eq_of_ascending {l₁ l₂ : List Nat} (h₁ : l₁.Pairwise (· < ·)) (h₂ : l₂.Pairwise (· < ·))
    (h : ∀ n, n ∈ l₁ ↔ n ∈ l₂) : l₁ = l₂ := by
  induction l₁ generalizing l₂ with
  | nil =>
      cases l₂ with
      | nil => rfl
      | cons b t => exact absurd ((h b).mpr (by simp)) (by simp)
  | cons a s ih =>
      cases l₂ with
      | nil => exact absurd ((h a).mp (by simp)) (by simp)
      | cons b t =>
          obtain ⟨ha, hs⟩ := List.pairwise_cons.mp h₁
          obtain ⟨hb, ht⟩ := List.pairwise_cons.mp h₂
          -- the least members agree
          have hab : a = b := by
            rcases List.mem_cons.mp ((h a).mp (by simp)) with e | e
            · exact e
            · rcases List.mem_cons.mp ((h b).mpr (by simp)) with e' | e'
              · exact e'.symm
              · exact absurd (hb a e) (by have := ha b e'; omega)
          subst hab
          refine congrArg (a :: ·) (ih hs ht fun n => ?_)
          constructor
          · intro hn
            rcases List.mem_cons.mp ((h n).mp (by simp [hn])) with e | e
            · exact absurd (ha n hn) (by omega)
            · exact e
          · intro hn
            rcases List.mem_cons.mp ((h n).mpr (by simp [hn])) with e | e
            · exact absurd (hb n hn) (by omega)
            · exact e

/-- Sets with the same members are equal. -/
@[ext] theorem ext {s t : NatSet} (h : ∀ n, n ∈ s ↔ n ∈ t) : s = t := by
  cases s with
  | mk l hl =>
      cases t with
      | mk m hm =>
          have : l = m := eq_of_ascending hl hm h
          subst this
          rfl

/-! ### Unions -/

theorem union_assoc (s t u : NatSet) : s ∪ t ∪ u = s ∪ (t ∪ u) :=
  ext fun n => by simp only [mem_union, or_assoc]

theorem union_comm (s t : NatSet) : s ∪ t = t ∪ s :=
  ext fun n => by simp only [mem_union, or_comm]

theorem union_self (s : NatSet) : s ∪ s = s :=
  ext fun n => by simp only [mem_union, or_self]

theorem union_empty {s : NatSet} : s ∪ ∅ = s :=
  ext fun n => by simp

theorem empty_union {s : NatSet} : ∅ ∪ s = s :=
  ext fun n => by simp

end NatSet

end ScriptCheck
