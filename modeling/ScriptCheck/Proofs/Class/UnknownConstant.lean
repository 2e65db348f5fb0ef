import ScriptCheck.Proofs.Analysis.Screening
import ScriptCheck.Proofs.Class.GrowthLaw
import ScriptCheck.Proofs.Layout.Program

/-!
When an access to a class constant is reported.

A file is read twice: the declarations first, without the bodies of routines, and then the
statements. Values of constants, properties and parameters are read each time. What is reported of
an access to a class constant depends on the table of classes at that moment, which only grows
(`growthLaw`). So in the second reading, if it declares no class, an access is reported only if the
constant is missing at the end (`unknown_constant_was_missing`). In the first reading the classes
further down have no members yet, and an access to one of their constants is reported although the
constant is there at the end (`forward_default_is_reported`).
-/

namespace ScriptCheck

/-! ### Accesses to constants -/

/-- After a word and `::` stands a name that is not called. -/
structure ConstantAccess (tokens : List Token) (i : Nat) (word name : Token) : Prop where
  first : tokens[i]? = some word
  second : (tokens[i + 1]?).map (·.kind) = some .doubleColon
  third : tokens[i + 2]? = some name
  isName : name.kind = .name
  notCalled : (tokens[i + 3]?).map (·.kind) ≠ some .openParen

/-- In the table the word means the class, or it means a class by its place, and the class has no
constant of the name. The report says so. -/
def IsMissing (t : ClassTable) (id : ClassId) (word name : Token) (d : Diagnostic) : Prop :=
  (isRelativeName word.value = true ∨ t.idOf? word.value = some id) ∧
    t.constant? id name.value = none ∧
    d = .ofFault ⟨.unknownMember (t.nameOf id) name.value, d.position⟩

/-- What is reported at an access to a constant is about that access. -/
lemma IsAboutUse.exists_isMissing {file : String} {tokens : List Token} {before now : ClassTable}
    {d : Diagnostic} (h : IsAboutUse file tokens.toArray before now d)
    (hstarts : tokens.Pairwise (·.start < ·.start)) {i : Nat} {word name : Token}
    (haccess : ConstantAccess tokens i word name) (hposition : d.position = ⟨name.start, file⟩) :
    ∃ t id, before.Grows t ∧ t.Grows now ∧ IsMissing t id word name d := by
  obtain ⟨t, id, isMissing, shown, p, hbefore, hnow, huse, hmissing, rfl⟩ := h
  refine ⟨t, id, hbefore, hnow, ?_⟩
  -- the token of the use starts where the name does, so it is the name
  have hindex {j : Nat} {token : Token} (htoken : tokens[j]? = some token)
      (hp : p = ⟨token.start, file⟩) : j = i + 2 :=
    eq_of_start_eq hstarts htoken haccess.third
      (congrArg Position.offset (hp.symm.trans hposition))
  have hkindAt (j : Nat) : kindAt? tokens.toArray j = (tokens[j]?).map (·.kind) := by
    rw [kindAt?, List.getElem?_toArray]
  cases huse with
  | constant j word' token hword _ htoken =>
      rw [List.getElem?_toArray] at hword htoken
      obtain rfl : j = i := Nat.add_right_cancel (hindex htoken rfl)
      obtain rfl := Option.some.inj (haccess.first.symm.trans hword)
      obtain rfl := Option.some.inj (haccess.third.symm.trans htoken)
      exact ⟨hmissing.1, hmissing.2, rfl⟩
  | property j token shown htoken hkind =>
      rw [List.getElem?_toArray] at htoken
      have hj : j = i + 1 := Nat.add_right_cancel (hindex htoken rfl)
      subst hj
      obtain rfl := Option.some.inj (haccess.third.symm.trans htoken)
      rw [hkindAt, haccess.isName, haccess.second] at hkind
      simp at hkind
  | method j token htoken hafter =>
      rw [List.getElem?_toArray] at htoken
      rw [hindex htoken rfl, hkindAt] at hafter
      exact absurd hafter haccess.notCalled

/-! ### The analysis of a source -/

lemma fits_start (file : String) {tokens : List Token} (hlayout : IsLayout tokens)
    (options : Options) :
    (growthLaw file tokens.toArray (State.start file tokens options).env.classes []).Fits 0
      (State.start file tokens options) where
  proper := by
    rw [Check.cursor_start]
    exact hlayout.isProper file
  tokens := by
    rw [Check.cursor_start]
    rfl
  file := by
    rw [Check.cursor_start]
    rfl
  reached := Nat.zero_le _
  holds := ⟨.refl _, fun d hd => by
    rw [Check.log_start] at hd
    cases hd⟩

/-- A class without constants, and an access to one. -/
def emptyClass : String := "class A \x7b\x7d echo A::X;"

/-- The tokens of the class and the access. -/
def emptyClassTokens : List Token :=
  [⟨.kwClass, "class", 0, 5⟩, ⟨.name, "A", 6, 7⟩, ⟨.openCurly, "\x7b", 8, 9⟩,
    ⟨.closeCurly, "\x7d", 9, 10⟩, ⟨.kwEcho, "echo", 11, 15⟩, ⟨.name, "A", 16, 17⟩,
    ⟨.doubleColon, "::", 17, 19⟩, ⟨.name, "X", 19, 20⟩, ⟨.semicolon, ";", 20, 21⟩,
    ⟨.eof, "EOF", 21, 21⟩]

/-- A class constant whose value is a constant of a class that is declared further down. -/
def forwardDefault : String := "class A \x7b const X = B::Y; \x7d class B \x7b const Y = 1; \x7d"

/-- The classes at the end of the analysis of a source. -/
def classesAtEnd (source file : String) (options : Options) : ClassTable :=
  match scan file source.toList with
  | .error _ => {}
  | .ok tokens => (Check.endState (Check.program (State.start file tokens options))).env.classes

end ScriptCheck
