import ScriptCheck.Proofs.Class.GrowthLaw
import ScriptCheck.Proofs.Coherence.Table

/-!
What is declared stays declared as it is.

The first declaration of a name counts, and only the reading that declared a class adds members to
it. `Env.Retains` says that between two moments nothing else has happened: declared classes are the
same, apart from one whose body is being read, functions and constants are the same, and everything
that is new has a name that was not taken. Every step of an analysis keeps this (`retentionLaw`), so
it holds between the start and the end of any computation that is put together from such steps
(`Check.retains_of_agree`).
-/

namespace ScriptCheck

/-! ### Entries under names -/

/-- The second list has the entries of the first, and after them only entries under new names. -/
def Extends {α : Type} (l l' : List (String × α)) : Prop :=
  ∃ added, l' = l ++ added ∧ ∀ entry ∈ added, l.lookup entry.1 = none

namespace Extends

variable {α : Type} {l l' l'' : List (String × α)}

lemma refl (l : List (String × α)) : Extends l l :=
  ⟨[], (List.append_nil l).symm, List.forall_mem_nil _⟩

/-- What is found under a name is found ever after. -/
lemma lookup_eq (h : Extends l l') {name : String} {a : α} (ha : l.lookup name = some a) :
    l'.lookup name = some a := by
  obtain ⟨added, rfl, -⟩ := h
  rw [List.lookup_append, ha]
  rfl

lemma lookup_eq_none (h : Extends l l') {name : String} (hnone : l'.lookup name = none) :
    l.lookup name = none := by
  cases ha : l.lookup name with
  | none => rfl
  | some a => cases hnone.symm.trans (h.lookup_eq ha)

lemma trans (h : Extends l l') (k : Extends l' l'') : Extends l l'' := by
  have hnone : ∀ {name}, l'.lookup name = none → l.lookup name = none := h.lookup_eq_none
  obtain ⟨added, rfl, hadded⟩ := h
  obtain ⟨later, rfl, hlater⟩ := k
  refine ⟨added ++ later, List.append_assoc _ _ _, List.forall_mem_append.mpr ⟨hadded, ?_⟩⟩
  exact fun entry hentry => hnone (hlater entry hentry)

lemma append (l : List (String × α)) {name : String} (hnew : l.lookup name = none) (a : α) :
    Extends l (l ++ [(name, a)]) :=
  ⟨[(name, a)], rfl, List.forall_mem_singleton.mpr hnew⟩

end Extends

/-- The first entry of a name stays, if a new one is put in only where there is none. -/
lemma lookup_ite_append {α : Type} {l : List (String × α)} {name : String} {a : α} :
    (if (l.lookup name).isSome then l else l ++ [(name, a)]).lookup name =
      some ((l.lookup name).getD a) := by
  cases h : l.lookup name with
  | none => simp [List.lookup_append, h]
  | some found => simp [h]

/-- The first function of a name stays. -/
lemma Env.function?_addFunction (env : Env) (f : FunctionDecl) :
    (env.addFunction f).function? f.name = some ((env.function? f.name).getD f) := by
  refine Eq.trans ?_ lookup_ite_append
  rw [addFunction, function?, apply_ite Env.functions]
  rfl

/-- The first constant of a name stays. -/
lemma Env.lookup_addConstant (env : Env) (name : String) (type : Ty) :
    (env.addConstant name type).constants.lookup name =
      some ((env.constants.lookup name).getD type) := by
  refine Eq.trans ?_ lookup_ite_append
  rw [addConstant, apply_ite Env.constants]
  rfl

/-! ### Classes -/

namespace ClassTable

/-- The class of the number is declared. -/
def IsDeclared (t : ClassTable) (id : ClassId) : Prop :=
  ∃ decl, t.get? id = some decl ∧ decl.isDeclared = true

/-- A class that is added is in the table, also if one of its name was there. -/
lemma exists_of_add (t : ClassTable) (decl : ClassDef) :
    ∃ found, (t.add decl).2.get? (t.add decl).1 = some found ∧
      (t.get? (t.add decl).1 = some found ∨ t.get? (t.add decl).1 = none ∧ found = decl) := by
  rw [add]
  split
  case h_1 id hid =>
      have hfound := List.getElem?_eq_getElem (lt_size_of_idOf? hid)
      exact ⟨_, hfound, .inl hfound⟩
  case h_2 =>
      refine ⟨decl, List.getElem?_concat_length, .inr ⟨?_, rfl⟩⟩
      exact List.getElem?_eq_none le_rfl

/-- Between two tables, the declared classes have stayed as they were, apart from one that may be
open: its members may have become more. What was only a name is still that name, and classes that
are new have new names. -/
structure Retains (opened : Option ClassId) (t t' : ClassTable) : Prop where
  grows : t.Grows t'
  declared : ∀ id, t.IsDeclared id → opened ≠ some id → t'.get? id = t.get? id
  added : ∀ id decl, t'.get? id = some decl → t.get? id = none → t.idOf? decl.name = none

namespace Retains

variable {opened : Option ClassId} {t u v : ClassTable}

lemma refl (opened : Option ClassId) (t : ClassTable) : t.Retains opened t where
  grows := .refl t
  declared _ _ _ := rfl
  added id decl hdecl hnone := by
    rw [hnone] at hdecl
    cases hdecl

/-- A name that means no class now meant none before. -/
lemma idOf?_eq_none (h : t.Retains opened u) {name : String} (hnone : u.idOf? name = none) :
    t.idOf? name = none := by
  cases hid : t.idOf? name with
  | none => rfl
  | some id => cases hnone.symm.trans (h.grows.idOf?_eq hid)

lemma isDeclared (h : t.Retains opened u) {id : ClassId} (hid : t.IsDeclared id) :
    u.IsDeclared id := by
  obtain ⟨decl, hdecl, hdeclared⟩ := hid
  obtain ⟨decl', hdecl', hheader⟩ := h.grows.header_eq hdecl hdeclared
  exact ⟨decl', hdecl', (ClassDef.isDeclared_of_header_eq hheader).trans hdeclared⟩

lemma trans (h : t.Retains opened u) (k : u.Retains opened v) : t.Retains opened v where
  grows := h.grows.trans k.grows
  declared id hid hclosed :=
    (k.declared id (h.isDeclared hid) hclosed).trans (h.declared id hid hclosed)
  added id decl hdecl hnone := by
    cases hu : u.get? id with
    | none => exact h.idOf?_eq_none (k.added id decl hdecl hu)
    | some decl' =>
        -- the class was new before, and has kept its name since
        obtain ⟨decl'', hdecl'', hgrows⟩ := k.grows id decl' hu
        obtain rfl := Option.some.inj (hdecl''.symm.trans hdecl)
        rw [hgrows.name]
        exact h.added id decl' hu hnone

/-! ### Steps -/

lemma add (t : ClassTable) (decl : ClassDef) : t.Retains none (t.add decl).2 where
  grows := .add (.refl t) decl
  declared id hid _ := by
    obtain ⟨found, hfound, -⟩ := hid
    rw [ClassTable.add]
    split
    · rfl
    · exact List.getElem?_append_left (List.getElem?_eq_some_iff.mp hfound).1
  added id found hfound hnone := by
    rw [ClassTable.add] at hfound
    split at hfound
    case h_1 =>
        rw [hnone] at hfound
        cases hfound
    case h_2 hnew =>
        have hlast : [decl][id - t.defs.length]? = some found := by
          rw [← List.getElem?_append_right (List.getElem?_eq_none_iff.mp hnone)]
          exact hfound
        rw [List.mem_singleton.mp (List.mem_of_getElem? hlast)]
        exact hnew

/-- A class that is open, or was not declared at first, may change while it keeps what is known. -/
lemma modify (h : t.Retains opened u) {id : ClassId} {g : ClassDef → ClassDef}
    (hgrows : u.Grows (u.modify id g)) (hid : t.IsDeclared id → opened = some id) :
    t.Retains opened (u.modify id g) := by
  refine ⟨h.grows.trans hgrows, fun k hk hclosed => ?_, fun k decl hdecl hnone => ?_⟩
  · have hne : id ≠ k := fun heq => hclosed (heq ▸ hid (heq ▸ hk))
    rw [get?_modify, ← h.declared k hk hclosed]
    simp only [hne, if_false, Option.map_id']
  · have hfound := hdecl
    rw [get?_modify, Option.map_eq_some_iff] at hfound
    obtain ⟨found, hfound, -⟩ := hfound
    obtain ⟨decl', hdecl', hname⟩ := hgrows k found hfound
    obtain rfl := Option.some.inj (hdecl'.symm.trans hdecl)
    rw [hname.name]
    exact h.added k found hfound hnone

lemma of_none (h : t.Retains none u) : t.Retains opened u :=
  { h with declared := fun id hid _ => h.declared id hid nofun }

end Retains

end ClassTable

/-! ### What is known by name -/

/-- Between two moments nothing that was declared has changed, apart from a class that may be open,
and everything that is new has a name that was not taken. -/
structure Env.Retains (opened : Option ClassId) (env env' : Env) : Prop where
  classes : env.classes.Retains opened env'.classes
  functions : Extends env.functions env'.functions
  constants : Extends env.constants env'.constants

namespace Env.Retains

variable {opened : Option ClassId} {a b c : Env}

lemma refl (opened : Option ClassId) (a : Env) : a.Retains opened a :=
  ⟨.refl opened _, .refl _, .refl _⟩

lemma trans (h : a.Retains opened b) (k : b.Retains opened c) : a.Retains opened c :=
  ⟨h.classes.trans k.classes, h.functions.trans k.functions, h.constants.trans k.constants⟩

lemma addFunction (env : Env) (f : FunctionDecl) : env.Retains opened (env.addFunction f) := by
  rw [Env.addFunction]
  split
  · exact .refl _ _
  case isFalse hnew =>
    exact ⟨.refl _ _, .append _ (Option.not_isSome_iff_eq_none.mp hnew) _, .refl _⟩

lemma addConstant (env : Env) (name : String) (type : Ty) :
    env.Retains opened (env.addConstant name type) := by
  rw [Env.addConstant]
  split
  · exact .refl _ _
  case isFalse hnew =>
    exact ⟨.refl _ _, .refl _, .append _ (Option.not_isSome_iff_eq_none.mp hnew) _⟩

lemma addClass (env : Env) (decl : ClassDef) : env.Retains opened (env.addClass decl).2 :=
  ⟨(ClassTable.Retains.add _ decl).of_none, .refl _, .refl _⟩

lemma modifyClass (h : a.Retains opened b) {id : ClassId} {g : ClassDef → ClassDef}
    (hgrows : b.classes.Grows (b.classes.modify id g))
    (hid : a.classes.IsDeclared id → opened = some id) : a.Retains opened (b.modifyClass id g) :=
  ⟨h.classes.modify hgrows hid, h.functions, h.constants⟩

/-- A class that is not declared now was not declared before. -/
lemma not_isDeclared (h : a.Retains opened b) {id : ClassId}
    (hundeclared : ∀ decl ∈ b.classes.get? id, decl.isDeclared = false) :
    ¬a.classes.IsDeclared id := by
  intro hid
  obtain ⟨decl, hdecl, hdeclared⟩ := h.classes.isDeclared hid
  rw [hundeclared decl hdecl] at hdeclared
  cases hdeclared

end Env.Retains

/-- What was declared at some moment stays as it is. A class may get members if it is open, or if it
was not declared at that moment. -/
def retentionLaw (file : String) (tokens : Array Token) (opened : Option ClassId) (before : Env) :
    (Relocation.stay file tokens).Law where
  Holds _ _ env := before.Retains opened env
  Fresh id := before.classes.IsDeclared id → opened = some id
  report _ _ h _ := h
  unknownMember _ h _ _ := h
  compile _ h := h
  addFunction f h := h.trans (.addFunction _ f)
  addConstant name type h := h.trans (.addConstant _ name type)
  addClass _ h _ := h.trans (.addClass _ _)
  declare _ _ _ _ _ _ h hundeclared _ := by
    have hnot := h.not_isDeclared hundeclared
    refine ⟨fun hid => absurd hid hnot, h.modifyClass ?_ fun hid => absurd hid hnot⟩
    exact .declare (.refl _) _ _ _ _ _ _ _ hundeclared
  addMember h hid hg := h.modifyClass (.addMember (.refl _) _ hg) hid
  placed _ _ _ := rfl

namespace Check

variable {α : Type} {m : Check α} {s : State}

/-- A computation that keeps every law leaves what was declared at its start as it is, however it
ends. -/
lemma retains_of_agree {β : Type} {R : α → β → Prop} {n : Check β} {opened : Option ClassId}
    (hs : s.cursor.IsProper)
    (h : (retentionLaw s.cursor.file s.cursor.tokens opened s.env).Agree 0 R m n) :
    (endState (m s)).cursor.IsProper ∧ s.env.Retains opened (endState (m s)).env := by
  have hfits := h.fits_endState {
    proper := hs
    tokens := rfl
    file := rfl
    reached := Nat.zero_le _
    holds := .refl opened s.env }
  exact ⟨hfits.proper, hfits.holds⟩

end Check

end ScriptCheck
