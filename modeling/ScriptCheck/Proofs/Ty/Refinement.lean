import ScriptCheck.Proofs.Descriptor.Display
import ScriptCheck.Proofs.Ty.Inclusion

/-!
A lax check is a strict check of some refinement.

A type whose innermost element may be anything is refined by putting another type in its place
(`Ty.Refines`). The two ways to check are related through refinements: a lax check accepts a source
exactly if a strict check accepts some refinement of it (`accepts_lax_tfae`).

* What a strict check accepts of a refinement, a lax check accepts of the source
  (`accepts_of_refines`): above the innermost element both look at the same containers, and at that
  element a lax check accepts anything.
* Conversely, the refinement is found along the containers of the source (`exists_refines`). Where
  they end in an element that may be anything, what the target expects there is put in, and every
  type accepts itself (`accepts_refl`).
-/

namespace ScriptCheck

namespace Ty

/-! ### Refinements -/

/-- The containers of a type around another innermost element. -/
def withInnermost : (type replacement : Ty) → Ty
  | container key element, replacement => container key (element.withInnermost replacement)
  | _, replacement => replacement

/-- The first type is the second one, or the second one with something put in for an innermost
element that may be anything. -/
def Refines (refined source : Ty) : Prop :=
  refined = source ∨
    source.innermost = mixed ∧ ∃ replacement, refined = source.withInnermost replacement

lemma Refines.refl (type : Ty) : type.Refines type := .inl rfl

/-- Whatever there is refines what may be anything. -/
lemma refines_mixed (type : Ty) : type.Refines mixed := .inr ⟨rfl, type, rfl⟩

lemma Refines.container {refined source : Ty} (h : refined.Refines source) (key : Keys) :
    (container key refined).Refines (container key source) := by
  rcases h with rfl | ⟨hmixed, replacement, rfl⟩
  · exact .refl _
  · exact .inr ⟨hmixed, replacement, rfl⟩

/-! ### Acceptance -/

variable {t : ClassTable} {strict : Bool} {target source : Ty}

lemma accepts_container {key sourceKey : Keys} {element sourceElement : Ty} :
    (container key element).accepts t strict (container sourceKey sourceElement) = true ↔
      (key == .either || sourceKey == .either || key == sourceKey) = true ∧
        element.accepts t strict sourceElement = true :=
  Bool.and_eq_true_iff

/-- Only containers, and what may be anything, accept containers. -/
lemma exists_container_of_accepts {sourceKey : Keys} {sourceElement : Ty}
    (h : target.accepts t strict (container sourceKey sourceElement) = true) :
    target = mixed ∨ ∃ key element, target = container key element := by
  cases target with
  | mixed => exact .inl rfl
  | container key element => exact .inr ⟨key, element, rfl⟩
  | _ => cases h

lemma accepts_lax_mixed (t : ClassTable) (target : Ty) : target.accepts t false mixed = true := by
  cases target <;> rfl

lemma accepts_refl (t : ClassTable) (strict : Bool) (type : Ty) :
    type.accepts t strict type = true := by
  induction type with
  | ofClass id name => exact t.isSubclass_refl id
  | container key element ih => exact accepts_container.mpr ⟨by simp, ih⟩
  | _ => rfl

/-- What is accepted under a strict check is accepted under a lax one. -/
lemma accepts_lax (h : target.accepts t true source = true) :
    target.accepts t false source = true := by
  induction target generalizing source with
  | container key element ih =>
      cases source with
      | mixed => rfl
      | container sourceKey sourceElement =>
          obtain ⟨hkeys, helement⟩ := accepts_container.mp h
          exact accepts_container.mpr ⟨hkeys, ih helement⟩
      | _ => exact h
  | _ =>
      cases source with
      | mixed => rfl
      | _ => exact h

/-! ### From a refinement to the source -/

/-- What a strict check accepts with something put in, a lax check accepts without it. -/
lemma accepts_of_withInnermost {replacement : Ty} (hmixed : source.innermost = mixed)
    (h : target.accepts t true (source.withInnermost replacement) = true) :
    target.accepts t false source = true := by
  induction source generalizing target with
  | mixed => exact accepts_lax_mixed t target
  | container sourceKey sourceElement ih =>
      obtain rfl | ⟨key, element, rfl⟩ := exists_container_of_accepts h
      · rfl
      · obtain ⟨hkeys, helement⟩ := accepts_container.mp h
        exact accepts_container.mpr ⟨hkeys, ih hmixed helement⟩
  | _ => cases hmixed

lemma accepts_of_refines {refined : Ty} (hrefines : refined.Refines source)
    (h : target.accepts t true refined = true) : target.accepts t false source = true := by
  rcases hrefines with rfl | ⟨hmixed, replacement, rfl⟩
  · exact accepts_lax h
  · exact accepts_of_withInnermost hmixed h

/-! ### From the source to a refinement -/

/-- A source that a lax check accepts has a refinement that a strict check accepts. Its classes are
those of the target and the source. -/
lemma exists_refines (htarget : target.ClassesIn t) (hsource : source.ClassesIn t)
    (h : target.accepts t false source = true) :
    ∃ refined : Ty, refined.ClassesIn t ∧ refined.Refines source ∧
      target.accepts t true refined = true := by
  induction source generalizing target with
  | mixed => exact ⟨target, htarget, refines_mixed target, accepts_refl t true target⟩
  | container sourceKey sourceElement ih =>
      obtain rfl | ⟨key, element, rfl⟩ := exists_container_of_accepts h
      · exact ⟨_, hsource, .refl _, rfl⟩
      · obtain ⟨hkeys, helement⟩ := accepts_container.mp h
        have hinside : element.ClassesIn t := htarget
        obtain ⟨refined, hclasses, hrefines, haccepts⟩ := ih hinside hsource helement
        exact ⟨.container sourceKey refined, hclasses, hrefines.container sourceKey,
          accepts_container.mpr ⟨hkeys, haccepts⟩⟩
  | _ =>
      -- a source without an element that may be anything is checked alike in both ways
      refine ⟨_, hsource, .refl _, ?_⟩
      cases target <;> exact h

end Ty

/-- **A lax check is a strict check of some refinement.** For types whose classes are in the table, a
lax check accepts the source for the target if and only if a strict check accepts a type that the
source becomes when something is put in for an innermost element that may be anything; it is enough
to look at types whose classes are in the table. -/
theorem accepts_lax_tfae (t : ClassTable) (target source : Ty) (htarget : target.ClassesIn t)
    (hsource : source.ClassesIn t) :
    [target.accepts t false source = true,
      ∃ refined : Ty, refined.Refines source ∧ target.accepts t true refined = true,
      ∃ refined : Ty, refined.ClassesIn t ∧ refined.Refines source ∧
        target.accepts t true refined = true].TFAE := by
  tfae_have 1 → 3 := Ty.exists_refines htarget hsource
  tfae_have 3 → 2 := by
    rintro ⟨refined, -, hrefined⟩
    exact ⟨refined, hrefined⟩
  tfae_have 2 → 1 := by
    rintro ⟨refined, hrefines, haccepts⟩
    exact Ty.accepts_of_refines hrefines haccepts
  tfae_finish

/-- Anything under any keys is accepted for shapes under names by a lax check only; a refinement of
it that a strict check accepts has shapes for anything. -/
theorem accepts_lax_tfae_shapes :
    let target := Ty.container .string (.ofClass 0 "Shape")
    let source := Ty.container .either .mixed
    target.accepts shapeTable true source = false ∧ target.accepts shapeTable false source = true ∧
      ∃ refined : Ty, refined.ClassesIn shapeTable ∧ refined.Refines source ∧
        target.accepts shapeTable true refined = true := by
  intro target source
  have htarget : target.ClassesIn shapeTable := by
    show 0 < shapeTable.size
    decide
  have hlax : target.accepts shapeTable false source = true := by decide
  have htfae := accepts_lax_tfae shapeTable target source htarget trivial
  exact ⟨by decide, hlax, (htfae.out 0 2).mp hlax⟩

end ScriptCheck
