import ScriptCheck.Flow.Compose
import ScriptCheck.Proofs.Class.Reachability

/-!
Exception contracts and subclassing.

A clause catches a class by naming one of its supertypes, and a routine declares a class in the
same way; a class with an unchecked ancestor needs no declaration. Both ways of being dealt with
pass from a class to everything that descends from it (`Descends.named`, `Descends.isUnchecked`),
so what leaves a set of exceptions takes its subclasses along, whatever shape the table has.
-/

namespace ScriptCheck

namespace ClassTable

variable {t : ClassTable} {c d : ClassId} {names : List ClassId}

/-- The list names a supertype of the class. -/
def Named (t : ClassTable) (names : List ClassId) (c : ClassId) : Prop :=
  ∃ k ∈ names, t.Descends c k

lemma named_iff : names.any (t.isSubclass c ·) = true ↔ t.Named names c := by
  simp only [List.any_eq_true, isSubclass_iff, Named]

lemma Descends.named (h : t.Descends d c) (hc : t.Named names c) : t.Named names d := by
  obtain ⟨k, hk, hck⟩ := hc
  exact ⟨k, hk, h.trans hck⟩

lemma Descends.isUnchecked (h : t.Descends d c) (hc : t.isUnchecked c = true) :
    t.isUnchecked d = true := by
  obtain ⟨marked, decl, hmarked, hdecl, hunchecked⟩ := isUnchecked_iff.mp hc
  exact isUnchecked_iff.mpr ⟨marked, decl, h.trans hmarked, hdecl, hunchecked⟩

end ClassTable

open ClassTable

variable {t : ClassTable} {raises : NatSet} {names : List ClassId} {c : ClassId}

lemma mem_uncaught_iff : c ∈ uncaught t raises names ↔ c ∈ raises ∧ ¬ t.Named names c := by
  rw [uncaught, NatSet.mem_filter, Bool.not_eq_true', ← Bool.not_eq_true, named_iff]

lemma mem_undeclared_iff :
    c ∈ undeclared t raises names ↔
      c ∈ raises ∧ t.isUnchecked c = false ∧ ¬ t.Named names c := by
  rw [undeclared, NatSet.mem_filter, Bool.and_eq_true, Bool.not_eq_true', Bool.not_eq_true',
    ← Bool.not_eq_true (names.any _), named_iff]

/-- **Contracts are closed under subclassing.** An exception that a clause catches is one whose
subclasses all have a supertype that the clause names, and an exception that a routine need not
declare further is one whose subclasses are all unchecked or have a declared supertype. What
either leaves over has none, and is checked in the second case. -/
theorem contracts_closed_under_subclassing (t : ClassTable) (raises : NatSet)
    (caught declared : List ClassId) :
    (∀ c ∈ raises, c ∉ uncaught t raises caught ↔
        ∀ d, t.Descends d c → ∃ k ∈ caught, t.Descends d k) ∧
      (∀ c ∈ raises, c ∉ undeclared t raises declared ↔
        ∀ d, t.Descends d c → t.isUnchecked d = true ∨ ∃ k ∈ declared, t.Descends d k) ∧
      (∀ c ∈ uncaught t raises caught, c ∈ raises ∧ ∀ k ∈ caught, ¬ t.Descends c k) ∧
      ∀ c ∈ undeclared t raises declared,
        c ∈ raises ∧ t.isUnchecked c = false ∧ ∀ k ∈ declared, ¬ t.Descends c k := by
  refine ⟨fun c hc => ⟨fun hleft d hd => ?_, fun h hkept => ?_⟩,
    fun c hc => ⟨fun hleft d hd => ?_, fun h hkept => ?_⟩, fun c hkept => ?_, fun c hkept => ?_⟩
  · have hnamed : t.Named caught c := by
      by_contra hnot
      exact hleft (mem_uncaught_iff.mpr ⟨hc, hnot⟩)
    exact hd.named hnamed
  · exact (mem_uncaught_iff.mp hkept).2 (h c Relation.ReflTransGen.refl)
  · cases hunchecked : t.isUnchecked c with
    | true => exact Or.inl (hd.isUnchecked hunchecked)
    | false =>
        have hnamed : t.Named declared c := by
          by_contra hnot
          exact hleft (mem_undeclared_iff.mpr ⟨hc, hunchecked, hnot⟩)
        exact Or.inr (hd.named hnamed)
  · obtain ⟨-, hchecked, hnot⟩ := mem_undeclared_iff.mp hkept
    rcases h c Relation.ReflTransGen.refl with hunchecked | hnamed
    · exact absurd hunchecked (Bool.eq_false_iff.mp hchecked)
    · exact hnot hnamed
  · obtain ⟨hc, hnot⟩ := mem_uncaught_iff.mp hkept
    exact ⟨hc, fun k hk hck => hnot ⟨k, hk, hck⟩⟩
  · obtain ⟨hc, hchecked, hnot⟩ := mem_undeclared_iff.mp hkept
    exact ⟨hc, hchecked, fun k hk hck => hnot ⟨k, hk, hck⟩⟩

/-- A chain of three classes, the last derived from the second and that from the first. -/
def chainOfThree : ClassTable where
  defs := [{ name := "Fault", position := default },
    { name := "Denied", superclass := some 0, position := default },
    { name := "Expired", superclass := some 1, position := default }]

/-- Catching the first class of the chain catches the second, and so the third. Declaring the third
leaves the second over. -/
theorem contracts_closed_of_chain :
    (∃ k ∈ [0], chainOfThree.Descends 2 k) ∧
      chainOfThree.isUnchecked 1 = false ∧ ∀ k ∈ [2], ¬ chainOfThree.Descends 1 k := by
  have hclosed := contracts_closed_under_subclassing chainOfThree (NatSet.ofList [1]) [0] [2]
  have hcaught : 1 ∉ uncaught chainOfThree (NatSet.ofList [1]) [0] := by decide
  have hkept : 1 ∈ undeclared chainOfThree (NatSet.ofList [1]) [2] := by decide
  have hderived : chainOfThree.Descends 2 1 := isSubclass_iff.mp (by decide)
  exact ⟨(hclosed.1 1 (by decide)).mp hcaught 2 hderived, (hclosed.2.2.2 1 hkept).2⟩

end ScriptCheck
