import Mathlib.Tactic
import ScriptCheck.Class.Table

/-!
How the table of classes grows.

An analysis enters classes, declares each of them once and adds members at the end. So of every class
everything stays known: its header from its declaration on, and its members in their order
(`ClassTable.Grows`). This is an order on tables.
-/

namespace ScriptCheck

/-- A class whose declaration has been read up to its members. -/
def ClassDef.declare (isInterface isAbstract isFinal isUnchecked : Bool) (position : Position)
    (superclass : Option ClassId) (interfaces : List ClassId) (decl : ClassDef) : ClassDef :=
  { decl with
    isInterface := isInterface
    isAbstract := isAbstract
    isFinal := isFinal
    isUnchecked := isUnchecked
    isDeclared := true
    position := position
    superclass := superclass
    interfaces := interfaces }

/-- A change of a class that adds one member. -/
inductive AddsMember : (ClassDef → ClassDef) → Prop
  | constant (c : Constant) : AddsMember fun decl => { decl with constants := decl.constants ++ [c] }
  | property (p : Property) :
      AddsMember fun decl => { decl with properties := decl.properties ++ [p] }
  | method (m : Method) : AddsMember fun decl => { decl with methods := decl.methods ++ [m] }

namespace ClassDef

/-- A class without its members. -/
def header (decl : ClassDef) : ClassDef :=
  { decl with constants := [], properties := [], methods := [] }

/-- What is known of the first class is known of the second. -/
structure Grows (decl decl' : ClassDef) : Prop where
  name : decl'.name = decl.name
  header : decl'.header = decl.header ∨ decl.isDeclared = false ∧ decl'.isDeclared = true
  constants : decl.constants <+: decl'.constants
  properties : decl.properties <+: decl'.properties
  methods : decl.methods <+: decl'.methods

lemma isDeclared_of_header_eq {decl decl' : ClassDef} (h : decl'.header = decl.header) :
    decl'.isDeclared = decl.isDeclared := by
  have hdeclared := congrArg ClassDef.isDeclared h
  exact hdeclared

namespace Grows

variable {a b c : ClassDef}

lemma refl (a : ClassDef) : a.Grows a :=
  ⟨rfl, .inl rfl, List.prefix_rfl, List.prefix_rfl, List.prefix_rfl⟩

lemma trans (h : a.Grows b) (k : b.Grows c) : a.Grows c where
  name := k.name.trans h.name
  header := by
    obtain hab | ⟨ha, hb⟩ := h.header
    · obtain hbc | ⟨hb, hc⟩ := k.header
      · exact .inl (hbc.trans hab)
      · exact .inr ⟨(isDeclared_of_header_eq hab).symm.trans hb, hc⟩
    · obtain hbc | ⟨-, hc⟩ := k.header
      · exact .inr ⟨ha, (isDeclared_of_header_eq hbc).trans hb⟩
      · exact .inr ⟨ha, hc⟩
  constants := h.constants.trans k.constants
  properties := h.properties.trans k.properties
  methods := h.methods.trans k.methods

lemma antisymm (h : a.Grows b) (k : b.Grows a) : a = b := by
  have hheader : b.header = a.header := by
    obtain hab | ⟨ha, hb⟩ := h.header
    · exact hab
    · obtain hba | ⟨hb', -⟩ := k.header
      · exact hba.symm
      · rw [hb] at hb'
        cases hb'
  have hconstants := h.constants.eq_of_length (le_antisymm h.constants.length_le k.constants.length_le)
  have hproperties :=
    h.properties.eq_of_length (le_antisymm h.properties.length_le k.properties.length_le)
  have hmethods := h.methods.eq_of_length (le_antisymm h.methods.length_le k.methods.length_le)
  obtain ⟨⟩ := a
  obtain ⟨⟩ := b
  simp_all [ClassDef.header]

end Grows

end ClassDef

namespace ClassTable

/-- Every class of the first table is in the second, with all that is known of it. -/
def Grows (t t' : ClassTable) : Prop :=
  ∀ id decl, t.get? id = some decl → ∃ decl', t'.get? id = some decl' ∧ decl.Grows decl'

namespace Grows

variable {t u v : ClassTable}

lemma refl (t : ClassTable) : t.Grows t :=
  fun _ decl hdecl => ⟨decl, hdecl, .refl decl⟩

lemma trans (h : t.Grows u) (k : u.Grows v) : t.Grows v := by
  intro id decl hdecl
  obtain ⟨decl', hdecl', hgrows⟩ := h id decl hdecl
  obtain ⟨decl'', hdecl'', hgrows'⟩ := k id decl' hdecl'
  exact ⟨decl'', hdecl'', hgrows.trans hgrows'⟩

lemma antisymm (h : t.Grows u) (k : u.Grows t) : t = u := by
  have hdefs : t.defs = u.defs := by
    refine List.ext_getElem? fun id => ?_
    cases ht : t.defs[id]? with
    | some decl =>
        obtain ⟨decl', hu, hgrows⟩ := h id decl ht
        obtain ⟨decl'', ht', hgrows'⟩ := k id decl' hu
        obtain rfl := Option.some.inj (ht.symm.trans ht')
        rw [hgrows.antisymm hgrows']
        exact hu.symm
    | none =>
        cases hu : u.defs[id]? with
        | none => rfl
        | some decl =>
            obtain ⟨decl', ht', -⟩ := k id decl hu
            cases ht.symm.trans ht'
  obtain ⟨defs⟩ := t
  obtain ⟨defs'⟩ := u
  rw [show defs = defs' from hdefs]

lemma empty (t : ClassTable) : (⟨[]⟩ : ClassTable).Grows t := by
  intro id decl hdecl
  simp [get?] at hdecl

/-- A name that means a class means it ever after. -/
lemma idOf?_eq (h : t.Grows u) {name : String} {id : ClassId} (hid : t.idOf? name = some id) :
    u.idOf? name = some id := by
  have hsame : ∀ (j : Nat) (hj : j < t.defs.length), ∃ hj' : j < u.defs.length,
      u.defs[j].name = t.defs[j].name := by
    intro j hj
    obtain ⟨decl, hdecl, hgrows⟩ := h j _ (List.getElem?_eq_getElem hj)
    obtain ⟨hj', rfl⟩ := List.getElem?_eq_some_iff.mp hdecl
    exact ⟨hj', hgrows.name⟩
  rw [idOf?, List.findIdx?_eq_some_iff_getElem] at hid ⊢
  obtain ⟨hlt, hname, hfirst⟩ := hid
  obtain ⟨hlt', hid⟩ := hsame id hlt
  refine ⟨hlt', ?_, fun j hj => ?_⟩
  · rw [hid]
    exact hname
  · obtain ⟨_, hj'⟩ := hsame j (hj.trans hlt)
    rw [hj']
    exact hfirst j hj

/-- The header of a declared class stays as it is. -/
lemma header_eq (h : t.Grows u) {id : ClassId} {decl : ClassDef} (hdecl : t.get? id = some decl)
    (hdeclared : decl.isDeclared = true) :
    ∃ decl', u.get? id = some decl' ∧ decl'.header = decl.header := by
  obtain ⟨decl', hdecl', hgrows⟩ := h id decl hdecl
  refine ⟨decl', hdecl', hgrows.header.resolve_right fun hnew => ?_⟩
  rw [hdeclared] at hnew
  cases hnew.1

/-! ### Steps -/

lemma add (h : t.Grows u) (decl : ClassDef) : t.Grows (u.add decl).2 := by
  refine h.trans fun id found hfound => ⟨found, ?_, .refl found⟩
  rw [ClassTable.add]
  split
  · exact hfound
  · have hlt : id < u.defs.length := (List.getElem?_eq_some_iff.mp hfound).1
    exact (List.getElem?_append_left hlt).trans hfound

lemma modify (h : t.Grows u) (id : ClassId) {g : ClassDef → ClassDef}
    (hg : ∀ decl ∈ u.get? id, decl.Grows (g decl)) : t.Grows (u.modify id g) := by
  refine h.trans fun k decl hdecl => ?_
  have hget : (u.modify id g).get? k = some (if id = k then g decl else decl) := by
    have hmodify := List.getElem?_modify g id u.defs k
    rw [show u.defs[k]? = some decl from hdecl] at hmodify
    exact hmodify
  by_cases hid : id = k
  · subst hid
    exact ⟨g decl, by rw [hget, if_pos rfl], hg decl hdecl⟩
  · exact ⟨decl, by rw [hget, if_neg hid], .refl decl⟩

/-- Declaring a class that is not declared yet. -/
lemma declare (h : t.Grows u) {id : ClassId} (isInterface isAbstract isFinal isUnchecked : Bool)
    (p : Position) (superclass : Option ClassId) (interfaces : List ClassId)
    (hundeclared : ∀ decl ∈ u.get? id, decl.isDeclared = false) :
    t.Grows (u.modify id
      (.declare isInterface isAbstract isFinal isUnchecked p superclass interfaces)) := by
  refine h.modify id fun decl hdecl => ⟨rfl, .inr ⟨hundeclared decl hdecl, rfl⟩, ?_, ?_, ?_⟩
  · exact List.prefix_rfl
  · exact List.prefix_rfl
  · exact List.prefix_rfl

lemma addMember (h : t.Grows u) (id : ClassId) {g : ClassDef → ClassDef} (hg : AddsMember g) :
    t.Grows (u.modify id g) := by
  refine h.modify id fun decl _ => ?_
  cases hg with
  | constant c => exact ⟨rfl, .inl rfl, List.prefix_append _ _, List.prefix_rfl, List.prefix_rfl⟩
  | property p => exact ⟨rfl, .inl rfl, List.prefix_rfl, List.prefix_append _ _, List.prefix_rfl⟩
  | method m => exact ⟨rfl, .inl rfl, List.prefix_rfl, List.prefix_rfl, List.prefix_append _ _⟩

end Grows

end ClassTable

end ScriptCheck
