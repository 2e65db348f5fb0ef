import ScriptCheck.Proofs.Flow.Levels

/-!
The laws of sequences and branches.

Joining exits is a union in each field, so it is associative, commutative and idempotent, and a
list of exits joins to the same whichever way it is ordered, repeated or grouped (`joined_congr`,
`joined_flatten`). One of several branches is that join, except that branches which nothing leaves
count as stopping; where each branch has a way out the exception does not arise (`oneOf_eq_joined`).
A sequence takes the completion out of its first part and joins the second, so it distributes over
branches on either side.
-/

namespace ScriptCheck

namespace Exits

variable {a b c s : Exits} {l l' : List Exits}

/-! ### Joins -/

lemma join_assoc (a b c : Exits) : (a.join b).join c = a.join (b.join c) := by
  simp only [join, Bool.or_assoc, NatSet.union_assoc]

lemma join_comm (a b : Exits) : a.join b = b.join a := by
  simp only [join, Bool.or_comm a.completes, Bool.or_comm a.stops, NatSet.union_comm a.breaks,
    NatSet.union_comm a.continues, NatSet.union_comm a.raises]

lemma join_self (a : Exits) : a.join a = a := by
  simp only [join, Bool.or_self, NatSet.union_self]

lemma empty_join (a : Exits) : join {} a = a := by
  simp only [join, Bool.false_or, NatSet.empty_union]

instance : Std.Associative join := ⟨join_assoc⟩

instance : Std.Commutative join := ⟨join_comm⟩

/-! ### Joins of lists -/

/-- The ways out of any statement of a list. -/
def joined (l : List Exits) : Exits := l.foldl join {}

lemma oneOf_eq (l : List Exits) : oneOf l = (joined l).orStops := rfl

@[simp] lemma joined_nil : joined [] = {} := rfl

lemma foldl_join (l : List Exits) (s : Exits) : l.foldl join s = s.join (joined l) := by
  induction l generalizing s with
  | nil => rw [joined_nil, join_comm, empty_join, List.foldl_nil]
  | cons a l ih =>
      have hl : joined (a :: l) = a.join (joined l) := by
        rw [joined, List.foldl_cons, ih, empty_join]
      rw [List.foldl_cons, ih, hl, join_assoc]

@[simp] lemma joined_cons (a : Exits) (l : List Exits) : joined (a :: l) = a.join (joined l) := by
  rw [joined, List.foldl_cons, foldl_join, empty_join]

lemma joined_append (l l' : List Exits) : joined (l ++ l') = (joined l).join (joined l') := by
  induction l with
  | nil => rw [List.nil_append, joined_nil, empty_join]
  | cons a l ih => rw [List.cons_append, joined_cons, joined_cons, ih, join_assoc]

/-- What already joins each statement of a list joins the list. -/
lemma join_joined_of_forall (h : ∀ a ∈ l, s.join a = s) : s.join (joined l) = s := by
  induction l with
  | nil => rw [joined_nil, join_comm, empty_join]
  | cons a l ih =>
      rw [joined_cons, ← join_assoc, h a List.mem_cons_self]
      exact ih fun b hb => h b (List.mem_cons_of_mem a hb)

lemma joined_join_of_mem (h : a ∈ l) : (joined l).join a = joined l := by
  induction l with
  | nil => cases h
  | cons b l ih =>
      rw [joined_cons]
      rcases List.mem_cons.mp h with rfl | h
      · calc (a.join (joined l)).join a = (a.join a).join (joined l) := by ac_rfl
          _ = a.join (joined l) := by rw [join_self]
      · rw [join_assoc, ih h]

/-- A join only depends on which statements there are, not on their order or number. -/
lemma joined_congr (h : ∀ a, a ∈ l ↔ a ∈ l') : joined l = joined l' := by
  have hl : (joined l).join (joined l') = joined l :=
    join_joined_of_forall fun a ha => joined_join_of_mem ((h a).mpr ha)
  have hl' : (joined l').join (joined l) = joined l' :=
    join_joined_of_forall fun a ha => joined_join_of_mem ((h a).mp ha)
  rw [← hl, join_comm, hl']

lemma joined_flatten (groups : List (List Exits)) :
    joined (groups.map joined) = joined groups.flatten := by
  induction groups with
  | nil => rfl
  | cons g groups ih => rw [List.map_cons, joined_cons, ih, List.flatten_cons, joined_append]

/-! ### Branches with a way out -/

lemma IsLeft.orStops_eq (h : s.IsLeft) : s.orStops = s := by
  rw [orStops, if_pos]
  rcases h with h | h | ⟨level, h⟩ | ⟨level, h⟩
  · simp [h]
  · simp [h]
  · have hne : s.breaks.isEmpty = false :=
      Bool.eq_false_iff.mpr fun hempty => NatSet.isEmpty_iff.mp hempty level h
    simp [hne]
  · have hne : s.continues.isEmpty = false :=
      Bool.eq_false_iff.mpr fun hempty => NatSet.isEmpty_iff.mp hempty level h
    simp [hne]

lemma IsLeft.join_left (h : a.IsLeft) : (a.join b).IsLeft := by
  rw [join_comm]
  exact h.join_right

lemma isLeft_joined (hne : l ≠ []) (h : ∀ a ∈ l, a.IsLeft) : (joined l).IsLeft := by
  cases l with
  | nil => exact absurd rfl hne
  | cons a l =>
      rw [joined_cons]
      exact (h a List.mem_cons_self).join_left

/-- Branches that can each be left are their join. -/
lemma oneOf_eq_joined (hne : l ≠ []) (h : ∀ a ∈ l, a.IsLeft) : oneOf l = joined l :=
  (isLeft_joined hne h).orStops_eq

lemma oneOf_pair (ha : a.IsLeft) : oneOf [a, b] = a.join b := by
  rw [oneOf_eq, joined_cons, joined_cons, joined_nil, join_comm b, empty_join,
    ha.join_left.orStops_eq]

/-! ### Sequences -/

/-- The ways out other than completion. -/
def abrupt (a : Exits) : Exits := { a with completes := false }

@[simp] lemma completes_abrupt (a : Exits) : a.abrupt.completes = false := rfl

lemma abrupt_join (a b : Exits) : (a.join b).abrupt = a.abrupt.join b.abrupt := rfl

lemma abrupt_of_not_completes (h : a.completes = false) : a.abrupt = a := by
  cases a
  cases h
  rfl

lemma andThen_of_completes (h : a.completes = true) : a.andThen b = a.abrupt.join b :=
  if_pos h

lemma andThen_of_not_completes (h : a.completes = false) : a.andThen b = a :=
  if_neg (by rw [h]; exact Bool.false_ne_true)

lemma passing_andThen (a : Exits) : passing.andThen a = a :=
  empty_join a

lemma andThen_passing (a : Exits) : a.andThen passing = a := by
  cases h : a.completes with
  | false => exact andThen_of_not_completes h
  | true =>
      rw [andThen_of_completes h]
      cases a
      cases h
      simp [abrupt, join, passing, NatSet.union_empty]

lemma andThen_assoc (a b c : Exits) : (a.andThen b).andThen c = a.andThen (b.andThen c) := by
  cases ha : a.completes with
  | false => simp only [andThen_of_not_completes ha]
  | true =>
      simp only [andThen_of_completes ha]
      have hcompletes : (a.abrupt.join b).completes = b.completes := Bool.false_or _
      cases hb : b.completes with
      | false =>
          rw [andThen_of_not_completes (hcompletes.trans hb), andThen_of_not_completes hb]
      | true =>
          rw [andThen_of_completes (hcompletes.trans hb), andThen_of_completes hb, abrupt_join,
            abrupt_of_not_completes (completes_abrupt a), join_assoc]

lemma IsLeft.andThen (ha : a.IsLeft) (hb : b.IsLeft) : (a.andThen b).IsLeft := by
  cases h : a.completes with
  | false => rwa [andThen_of_not_completes h]
  | true =>
      rw [andThen_of_completes h]
      exact hb.join_right

/-- What follows either of two statements follows each of them. -/
lemma join_andThen (a b c : Exits) :
    (a.join b).andThen c = (a.andThen c).join (b.andThen c) := by
  cases ha : a.completes with
  | false =>
      cases hb : b.completes with
      | false =>
          have hjoin : (a.join b).completes = false := by simp [join, ha, hb]
          rw [andThen_of_not_completes hjoin, andThen_of_not_completes ha,
            andThen_of_not_completes hb]
      | true =>
          have hjoin : (a.join b).completes = true := by simp [join, hb]
          rw [andThen_of_completes hjoin, andThen_of_not_completes ha, andThen_of_completes hb,
            abrupt_join, abrupt_of_not_completes ha, join_assoc]
  | true =>
      have hjoin : (a.join b).completes = true := by simp [join, ha]
      rw [andThen_of_completes hjoin, andThen_of_completes ha, abrupt_join]
      cases hb : b.completes with
      | false =>
          rw [andThen_of_not_completes hb, abrupt_of_not_completes hb]
          ac_rfl
      | true =>
          rw [andThen_of_completes hb]
          calc (a.abrupt.join b.abrupt).join c
              = (a.abrupt.join b.abrupt).join (c.join c) := by rw [join_self]
            _ = (a.abrupt.join c).join (b.abrupt.join c) := by ac_rfl

/-- Either of two statements follows what stands before them both. -/
lemma andThen_join (a b c : Exits) :
    a.andThen (b.join c) = (a.andThen b).join (a.andThen c) := by
  cases ha : a.completes with
  | false => simp only [andThen_of_not_completes ha, join_self]
  | true =>
      simp only [andThen_of_completes ha]
      calc a.abrupt.join (b.join c)
          = (a.abrupt.join a.abrupt).join (b.join c) := by rw [join_self]
        _ = (a.abrupt.join b).join (a.abrupt.join c) := by ac_rfl

/-- Sequences are associative, passing control on is their identity on both sides, and what
follows a statement that does not complete is not counted. Branches are only counted by which of
them there are, so neither their order nor a repetition matters, and groups of branches may be
made before the whole is. Sequences distribute over branches on both sides. Where branches are
involved each statement has a way out. -/
theorem sequences_and_branches :
    (∀ a b c : Exits, (a.andThen b).andThen c = a.andThen (b.andThen c)) ∧
      (∀ a : Exits, passing.andThen a = a ∧ a.andThen passing = a) ∧
      (∀ a b : Exits, a.completes = false → a.andThen b = a) ∧
      (∀ l l' : List Exits, (∀ a, a ∈ l ↔ a ∈ l') → oneOf l = oneOf l') ∧
      (∀ a : Exits, a.IsLeft → oneOf [a] = a) ∧
      (∀ groups : List (List Exits), (∀ g ∈ groups, g ≠ [] ∧ ∀ a ∈ g, a.IsLeft) →
        oneOf (groups.map oneOf) = oneOf groups.flatten) ∧
      ∀ a b c : Exits, a.IsLeft → b.IsLeft → c.IsLeft →
        (oneOf [a, b]).andThen c = oneOf [a.andThen c, b.andThen c] ∧
          a.andThen (oneOf [b, c]) = oneOf [a.andThen b, a.andThen c] := by
  refine ⟨andThen_assoc, fun a => ⟨passing_andThen a, andThen_passing a⟩,
    fun a b => andThen_of_not_completes, ?_, ?_, ?_, ?_⟩
  · intro l l' h
    rw [oneOf_eq, oneOf_eq, joined_congr h]
  · intro a ha
    rw [oneOf_eq, joined_cons, joined_nil, join_comm, empty_join, ha.orStops_eq]
  · intro groups h
    have hmap : groups.map oneOf = groups.map joined :=
      List.map_congr_left fun g hg => oneOf_eq_joined (h g hg).1 (h g hg).2
    rw [hmap, oneOf_eq, oneOf_eq, joined_flatten]
  · intro a b c ha hb hc
    constructor
    · rw [oneOf_pair ha, oneOf_pair (ha.andThen hc), join_andThen]
    · rw [oneOf_pair hb, oneOf_pair (ha.andThen hb), andThen_join]

/-- A statement that completes, breaks or raises, one that stops, and one that goes on with the
loop two levels out: the groups and sequences of all three. -/
theorem sequences_and_branches_of_three :
    oneOf ([[breaking 1, alsoRaising passing (NatSet.ofList [4])], [stopping]].map oneOf) =
        oneOf [breaking 1, alsoRaising passing (NatSet.ofList [4]), stopping] ∧
      (oneOf [alsoRaising passing (NatSet.ofList [4]), stopping]).andThen (continuing 2) =
        oneOf [(alsoRaising passing (NatSet.ofList [4])).andThen (continuing 2),
          stopping.andThen (continuing 2)] := by
  have hpassing : (alsoRaising passing (NatSet.ofList [4])).IsLeft := Or.inl rfl
  have hstopping : stopping.IsLeft := (@fits_stopping 0).isLeft
  have hcontinuing : (continuing 2).IsLeft := (@fits_continuing 2 2 (by omega)).isLeft
  have hbreaking : (breaking 1).IsLeft := (@fits_breaking 1 1 (by omega)).isLeft
  refine ⟨sequences_and_branches.2.2.2.2.2.1 _ fun g hg => ?_,
    (sequences_and_branches.2.2.2.2.2.2 _ _ _ hpassing hstopping hcontinuing).1⟩
  simp only [List.mem_cons, List.not_mem_nil, or_false] at hg
  rcases hg with rfl | rfl
  · exact ⟨List.cons_ne_nil _ _, by simp [hbreaking, hpassing]⟩
  · exact ⟨List.cons_ne_nil _ _, by simp [hstopping]⟩

end Exits

end ScriptCheck
