import ScriptCheck.Proofs.Layout.Agreement

/-!
The steps of an analysis agree on relocated tokens.

These are the steps that every reader is put together from, and the readers of annotations.
-/

namespace ScriptCheck

namespace Relocation

/-- A name at its new place. -/
def nameAt (r : Relocation) (n : NameAt) : NameAt := { n with position := r.position n.position }

/-- An annotation at its new place. -/
def note (r : Relocation) : Note → Note
  | .type descriptor position => .type descriptor (r.position position)
  | .void => .void
  | .throws classes => .throws (classes.map r.nameAt)
  | .unchecked => .unchecked

/-- What is known of an expression, with the expression at its new place. -/
def facts (r : Relocation) (e : Facts) : Facts := { e with position := r.position e.position }

lemma allRaises_map (r : Relocation) (exprs : List Facts) :
    allRaises (exprs.map r.facts) = allRaises exprs := by
  induction exprs with
  | nil => rfl
  | cons e exprs ih =>
      show (r.facts e).raises ∪ allRaises (exprs.map r.facts) = e.raises ∪ allRaises exprs
      rw [ih]
      rfl

end Relocation

namespace Check

open Relocation.Law (Agree AgreeIf Results)

variable {r : Relocation} {K : r.Law} {least : Nat} {α β γ δ : Type} {R : α → β → Prop}
  {S : γ → δ → Prop} {m : Check α} {n : Check β}

/-- Computations that give a part of the state agree if the parts are related. -/
lemma agree_peek {φ : State → α} {ψ : State → β} (hm : ∀ s, m s = .ok (φ s) s)
    (hn : ∀ s, n s = .ok (ψ s) s) (h : ∀ s, K.Fits least s → R (φ s) (ψ (r.state s))) :
    K.Agree least R m n := by
  intro s hs
  rw [hm, hn]
  exact .ok (h s hs) hs

/-! ### The cursor -/

lemma agree_kind : K.Alike least Eq kind :=
  agree_peek (fun _ => rfl) (fun _ => rfl) fun _ hs => (r.kind_cursor hs.proper).symm

lemma agree_kindAhead (i : Nat) : K.Alike least Eq (kindAhead i) :=
  agree_peek (fun _ => rfl) (fun _ => rfl) fun _ _ => (r.kindAhead_cursor i).symm

lemma agree_current : K.Alike least (r.SameToken least) current :=
  agree_peek (fun _ => rfl) (fun _ => rfl) fun _ hs => hs.current

lemma agree_position : K.Alike least (Maps r.position) position :=
  agree_peek (fun _ => rfl) (fun _ => rfl) fun _ hs => r.position_cursor hs.proper hs.file

lemma agree_positionOf (token : Token) :
    K.Agree least (r.SamePlace token) (positionOf token) (positionOf (r.token token)) := by
  refine agree_peek (fun _ => rfl) (fun _ => rfl) fun s hs => ?_
  have hfile : (r.state s).cursor.file = r.file := hs.file
  rw [hfile, hs.file]
  exact ⟨rfl, (r.position_here _).symm⟩

lemma agree_bound : K.Alike least Eq bound :=
  agree_peek (fun _ => rfl) (fun _ => rfl) fun _ _ => congrArg (· + 1) r.remaining_cursor.symm

/-- A move of the cursor forward. -/
lemma results_move {s : State} {a : α} {b : β} {c c' : Cursor} (hs : K.Fits least s) (hab : R a b)
    (hc : s.cursor.Onward c) (hproper : c.IsProper) (hc' : c' = r.cursor c) :
    K.Results least R (.ok a { s with cursor := c }) (.ok b { r.state s with cursor := c' }) :=
  hc' ▸ .ok hab (hs.move hc hproper)

lemma agree_advance : K.Alike least (r.SameToken least) advance := fun s hs =>
  results_move hs hs.current s.cursor.onward_advance hs.proper.advance
    (r.advance_cursor hs.proper)

lemma agree_fail {cause : Cause} (hcause : cause.isUnknownMember = false) (p : Position) :
    K.Agree least R (fail cause p) (fail cause (r.position p)) :=
  .throw (e := .fault ⟨cause, p⟩) fun _ h => by
    cases h
    exact hcause

lemma agree_failHere {cause : Cause} (hcause : cause.isUnknownMember = false) :
    K.Agree least R (do fail cause (← position)) (do fail cause (← position)) :=
  agree_position.bind_maps fun p => agree_fail hcause p

lemma agree_spent : K.Agree least R (throw .spent) (throw .spent) :=
  .throw fun _ h => nomatch h

lemma agree_reject : K.Agree least R (reject : Check α) (reject : Check β) := by
  intro s hs
  show K.Results least R (.error (.fault s.cursor.rejection) s)
    (.error (.fault (r.cursor s.cursor).rejection) (r.state s))
  rw [r.rejection_cursor hs.proper hs.file]
  refine .error (fun _ h => ?_) hs
  cases h
  rfl

lemma agree_rejectToken (token : Token) :
    K.Agree least R (rejectToken token) (rejectToken (r.token token)) :=
  (agree_positionOf token).bind_place fun p _ => agree_fail rfl p

/-- A token that is required has the kind. -/
lemma agree_requireKind (kind : Kind) :
    K.Alike least (fun a b => a.kind = kind ∧ r.SameToken least a b) (require kind) := by
  intro s hs
  have hsame : (r.state s).cursor.kind = s.cursor.kind := r.kind_cursor hs.proper
  by_cases hkind : s.cursor.kind = kind
  · rw [require_of_kind hkind, require_of_kind (hsame.trans hkind)]
    exact results_move hs ⟨hkind, hs.current⟩ s.cursor.onward_advance hs.proper.advance
      (r.advance_cursor hs.proper)
  · rw [require_of_ne hkind, require_of_ne (hsame ▸ hkind)]
    show K.Results least _ _ (.error (.fault ((r.cursor s.cursor).missing kind)) _)
    rw [r.missing_cursor hs.proper hs.file]
    refine .error (fun _ h => ?_) hs
    cases h
    rfl

lemma agree_require {kind : Kind} : K.Alike least (r.SameToken least) (require kind) :=
  (agree_requireKind kind).mono fun _ _ h => h.2

lemma agree_takes {kind : Kind} : K.Alike least Eq (takes kind) := by
  intro s hs
  have hsame : (r.state s).cursor.kind = s.cursor.kind := r.kind_cursor hs.proper
  by_cases hkind : s.cursor.kind = kind
  · rw [takes_of_kind hkind, takes_of_kind (hsame.trans hkind)]
    exact results_move hs rfl s.cursor.onward_advance hs.proper.advance
      (r.advance_cursor hs.proper)
  · rw [takes_of_ne hkind, takes_of_ne (hsame ▸ hkind)]
    exact .ok rfl hs

lemma agree_passBlock : K.Alike least Eq passBlock := by
  intro s hs
  have hcursor : (r.state s).cursor = r.cursor s.cursor := rfl
  rw [passBlock_run, passBlock_run, hcursor, r.passBlock_cursor hs.proper hs.file]
  obtain ⟨honward, hproper, -⟩ := hs.proper.passBlock
  have hmoved := hs.move honward hproper
  have hcause : ∀ fault, s.cursor.passBlock.1 = .error fault →
      fault.cause.isUnknownMember = false := by
    intro fault h
    rw [Cursor.passBlock] at h
    split at h
    · dsimp only at h
      split at h <;> cases h
      rfl
    · cases h
      rfl
  cases hresult : s.cursor.passBlock.1 with
  | ok => exact .ok rfl hmoved
  | error fault =>
      refine .error (fun fault' h => ?_) hmoved
      cases h
      exact hcause fault hresult

/-- After a token other than the end token the cursor is not on the first one any more. -/
lemma agree_bind_require {kind : Kind} {f : Token → Check γ} {g : Token → Check δ}
    (hkind : kind ≠ .eof)
    (hf : ∀ a b, r.SameToken least a b → K.Agree (max least 1) S (f a) (g b)) :
    K.Agree least S (require kind >>= f) (require kind >>= g) := by
  refine agree_require.bind_from (le_max_left _ _) (fun s a s' hs hok => ?_) hf
  obtain ⟨hkind', rfl⟩ := require_ok hok
  have hlt := Cursor.lt_advance_index (hkind' ▸ hkind)
  have hreached := hs.reached
  show max least 1 ≤ s.cursor.advance.index
  omega

/-! ### Reports and names -/

lemma agree_report {cause : Cause} (hcause : cause.isUnknownMember = false) (p : Position) :
    K.Agree least Eq (report cause p) (report cause (r.position p)) := by
  intro s hs
  show K.Results least Eq (.ok () { s with log := s.log.addFault ⟨cause, p⟩ })
    (.ok () { r.state s with log := (r.log s.log).addFault (r.fault ⟨cause, p⟩) })
  rw [r.addFault_log]
  exact .ok rfl (hs.report hcause p)

/-- A change of the known names that the law allows. -/
lemma results_changeEnv {s : State} {a : α} {b : β} {e e' : Env} (hs : K.Fits least s) (hab : R a b)
    (he : K.Holds s.log s.types e) (he' : e' = r.env e) :
    K.Results least R (.ok a { s with env := e }) (.ok b { r.state s with env := e' }) :=
  he' ▸ .ok hab { hs with holds := he }

lemma agree_classes : K.Alike least (Maps (.relocate r.origin)) classes :=
  agree_peek (fun _ => rfl) (fun _ => rfl) fun _ _ => rfl

lemma agree_className (id : ClassId) : K.Alike least Eq (className id) :=
  agree_peek (fun _ => rfl) (fun _ => rfl) fun s _ => (s.env.classes.nameOf_relocate r.origin id).symm

lemma superclass_relocate (t : ClassTable) (id : Option ClassId) :
    (id.bind (t.relocate r.origin).get?).bind (·.superclass) =
      (id.bind t.get?).bind (·.superclass) := by
  cases id with
  | none => rfl
  | some id =>
      simp only [Option.bind_some, ClassTable.get?_relocate]
      cases t.get? id <;> rfl

lemma agree_classNamed? {name : String} : K.Alike least Eq (classNamed? name) := by
  refine .look fun s hs => .ite (fun _ => .pure rfl) fun _ => .ite (fun _ => .pure ?_) fun _ => .pure ?_
  · exact (superclass_relocate s.env.classes s.inClass).symm
  · exact (s.env.classes.idOf?_relocate r.origin name).symm

/-! ### Types -/

lemma agree_compile (descriptor : String) : K.Alike least Eq (compile descriptor) := by
  intro s hs
  have hclasses : (r.state s).env.classes = s.env.classes.relocate r.origin := rfl
  have htypes : (r.state s).types = s.types := rfl
  rw [compile_run, compile_run, hclasses, htypes, r.compile_relocate]
  exact .ok rfl { hs with holds := K.compile descriptor hs.holds }

lemma agree_typeOf (descriptor : String) : K.Alike least Eq (typeOf descriptor) := by
  refine (agree_compile descriptor).bind_eq fun result => ?_
  cases result with
  | ok type => exact .pure rfl
  | error e => exact .pure rfl

lemma agree_mixed : K.Alike least Eq mixed := agree_typeOf _

lemma spellSelf_state (s : State) (descriptor : String) :
    spellSelf (r.state s) descriptor = spellSelf s descriptor := by
  have hclasses : (r.state s).env.classes = s.env.classes.relocate r.origin := rfl
  have hclass : (r.state s).inClass = s.inClass := rfl
  simp only [spellSelf, hclasses, hclass, ClassTable.nameOf_relocate]

lemma agree_noteType (descriptor : String) (p : Position) :
    K.Agree least Eq (noteType descriptor p) (noteType descriptor (r.position p)) := by
  refine .look fun s hs => ?_
  rw [spellSelf_state]
  refine (agree_compile _).bind_eq fun result => ?_
  cases result with
  | ok type => exact .pure rfl
  | error e => exact (agree_report rfl p).bind_eq fun _ => agree_mixed

lemma agree_instanceType (id : ClassId) : K.Alike least Eq (instanceType id) :=
  (agree_className id).bind_eq agree_typeOf

lemma agree_accepts (target source : Ty) : K.Alike least Eq (accepts target source) :=
  agree_peek (fun _ => rfl) (fun _ => rfl) fun s _ =>
    (r.accepts_relocate s.env.classes s.options.strict target source).symm

lemma agree_checkType (expected received : Ty) (p : Position) :
    K.Agree least Eq (checkType expected received p) (checkType expected received (r.position p)) := by
  refine (agree_accepts expected received).bind_eq fun accepted => ?_
  exact .ite (fun _ => .pure rfl) fun _ => agree_report rfl p

/-! ### Steps in front of a computation -/

end Check

namespace Relocation.Law.Agree

open Check

variable {r : Relocation} {K : r.Law} {least : Nat} {γ δ : Type} {S : γ → δ → Prop}

section Tokens

variable {kind : Kind} {f : Token → Check γ} {g : Token → Check δ}
  (hf : ∀ token, r.Has least token → K.Agree least S (f token) (g (r.token token)))

include hf

lemma current : K.Agree least S (Check.current >>= f) (Check.current >>= g) :=
  agree_current.bind_token hf

lemma advance : K.Agree least S (Check.advance >>= f) (Check.advance >>= g) :=
  agree_advance.bind_token hf

lemma require : K.Agree least S (Check.require kind >>= f) (Check.require kind >>= g) :=
  agree_require.bind_token hf

end Tokens

lemma onKind {f : Kind → Check γ} {g : Kind → Check δ}
    (hf : ∀ kind, K.Agree least S (f kind) (g kind)) :
    K.Agree least S (Check.kind >>= f) (Check.kind >>= g) :=
  agree_kind.bind_eq hf

lemma takes {kind : Kind} {f : Bool → Check γ} {g : Bool → Check δ}
    (hf : ∀ taken, K.Agree least S (f taken) (g taken)) :
    K.Agree least S (Check.takes kind >>= f) (Check.takes kind >>= g) :=
  agree_takes.bind_eq hf

lemma bound {f : Nat → Check γ} {g : Nat → Check δ} (hf : ∀ n, K.Agree least S (f n) (g n)) :
    K.Agree least S (Check.bound >>= f) (Check.bound >>= g) :=
  agree_bound.bind_eq hf

lemma positionOf {token : Token} {f : Position → Check γ} {g : Position → Check δ}
    (hf : ∀ p, p = ⟨token.start, r.file⟩ → K.Agree least S (f p) (g (r.position p))) :
    K.Agree least S (Check.positionOf token >>= f) (Check.positionOf (r.token token) >>= g) :=
  (agree_positionOf token).bind_place hf

lemma report {cause : Cause} {p : Position} {f : Unit → Check γ} {g : Unit → Check δ}
    (hcause : cause.isUnknownMember = false) (hf : ∀ u, K.Agree least S (f u) (g u)) :
    K.Agree least S (Check.report cause p >>= f) (Check.report cause (r.position p) >>= g) :=
  (agree_report hcause p).bind_eq hf

lemma mixed {f : Ty → Check γ} {g : Ty → Check δ} (hf : ∀ type, K.Agree least S (f type) (g type)) :
    K.Agree least S (Check.mixed >>= f) (Check.mixed >>= g) :=
  agree_mixed.bind_eq hf

end Relocation.Law.Agree

namespace Check

open Relocation.Law (Agree AgreeIf Results)

variable {r : Relocation} {K : r.Law} {least : Nat} {α β γ δ : Type} {R : α → β → Prop}
  {S : γ → δ → Prop} {m : Check α} {n : Check β}

/-! ### Variables -/

lemma agree_variableNamed? (name : String) : K.Alike least Eq (variableNamed? name) :=
  agree_peek (fun _ => rfl) (fun _ => rfl) fun _ _ => rfl

lemma agree_setVariable {name : String} {type : Ty} {isAnnotated : Bool} :
    K.Alike least Eq (setVariable name type isAnnotated) :=
  fun _ hs => .ok rfl { hs with }

/-! ### Annotations -/

lemma agree_descriptorTags (fuel : Nat) (text : List Char) :
    K.Alike least Eq (descriptorTags fuel text) := by
  induction fuel generalizing text with
  | zero => exact agree_spent
  | succ fuel ih =>
      refine .onKind fun here => .ite (fun _ => ?_) fun _ => .pure rfl
      refine .advance fun _ _ => .onKind fun next => ?_
      extract_lets rest
      have hrest : ∀ key, K.Alike least Eq (rest key) :=
        fun key => .require fun _ _ => ih _
      refine .ite (fun _ => ?_) fun _ => hrest []
      exact .advance fun token _ => hrest token.value.toList

lemma agree_descriptorWithin (fuel : Nat) : K.Alike least Eq (descriptorWithin fuel) := by
  induction fuel with
  | zero => exact agree_spent
  | succ fuel ih =>
      refine .current fun base _ => ?_
      extract_lets rest rest'
      have hrest : ∀ u, K.Agree least Eq (rest u) (rest' u) := by
        refine fun _ => .advance fun _ _ => .bound fun n => ?_
        refine (agree_descriptorTags n _).bind_eq fun text => .onKind fun next => ?_
        exact .ite (fun _ => ih.bind_eq fun _ => .pure rfl) fun _ => .pure rfl
      refine .ite (fun _ => hrest ()) fun _ => .positionOf fun p _ => ?_
      exact (agree_fail rfl p).bind_eq hrest

lemma agree_descriptor : K.Alike least Eq descriptor :=
  .bound fun n => (agree_descriptorWithin n).bind_eq fun _ => .pure rfl

lemma agree_nameList (fuel : Nat) : K.Alike least (Maps (List.map r.nameAt)) (nameList fuel) := by
  induction fuel with
  | zero => exact agree_spent
  | succ fuel ih =>
      refine .require fun token _ => ?_
      refine .positionOf fun p _ => .takes fun more => ?_
      exact .ite (fun _ => ih.bind_maps fun rest => .pure rfl) fun _ => .pure rfl

lemma agree_names : K.Alike least (Maps (List.map r.nameAt)) names :=
  .bound agree_nameList

lemma agree_noteContent : K.Alike least (Maps r.note) noteContent := by
  refine .current fun token _ => ?_
  refine .ite (fun _ => .advance fun _ _ => .pure rfl) fun _ => ?_
  refine .ite (fun _ => .advance fun _ _ => .pure rfl) fun _ => ?_
  refine .ite (fun _ => .advance fun _ _ => ?_) fun _ => ?_
  · exact agree_names.bind_maps fun names => .pure rfl
  · refine agree_descriptor.bind_eq fun text => ?_
    exact .positionOf fun p _ => .pure rfl

lemma agree_note : K.Alike least (Maps r.note) note := by
  refine .require fun _ _ => agree_noteContent.bind_maps fun content => ?_
  refine .current fun token _ => ?_
  extract_lets rest rest'
  have hrest : ∀ u, K.Agree least (Maps r.note) (rest u) (rest' u) :=
    fun _ => .advance fun _ _ => .pure rfl
  refine .ite (fun _ => hrest ()) fun _ => .positionOf fun p _ => ?_
  exact (agree_fail rfl p).bind_eq hrest

lemma agree_note? : K.Alike least (Maps (Option.map r.note)) note? :=
  .onKind fun _ => .ite (fun _ => agree_note.bind_maps fun _ => .pure rfl)
    fun _ => .pure rfl

/-! ### Steps at a known place -/

/-- The cursor of the state is at a place, and the classes are those of a table. -/
def IsAt (i : Nat) (t : ClassTable) (s : State) : Prop :=
  s.cursor.index = i ∧ s.env.classes = t

variable {i : Nat} {t : ClassTable} {f : α → Check γ} {g : β → Check δ}

lemma kindAt?_of_fits {s : State} (hs : K.Fits least s) (hat : IsAt i t s) :
    r.tokens[i]? = some s.cursor.current ∧ kindAt? r.tokens i = some s.cursor.kind := by
  have htoken : r.tokens[i]? = some s.cursor.current := by
    have hinside := hs.proper.inside
    rw [Cursor.current_eq hinside, ← hs.tokens, ← hat.1]
    exact Array.getElem?_eq_getElem hinside
  refine ⟨htoken, ?_⟩
  rw [kindAt?, htoken]
  rfl

lemma agree_of_isAt (h : ∀ i t, K.AgreeIf least (IsAt i t) R m n) : K.Agree least R m n :=
  fun s hs => h s.cursor.index s.env.classes s hs ⟨rfl, rfl⟩

/-- A part that leaves the cursor and the names alone. -/
lemma agreeIf_bind_quiet (hm : K.Agree least R m n)
    (hquiet : ∀ s a s', m s = .ok a s' → s'.cursor = s.cursor ∧ s'.env = s.env)
    (hf : ∀ a b, R a b → K.AgreeIf least (IsAt i t) S (f a) (g b)) :
    K.AgreeIf least (IsAt i t) S (m >>= f) (n >>= g) := by
  refine AgreeIf.bind (Q := fun _ => IsAt i t) hm.agreeIf (fun s a s' _ hat hok => ?_) hf
  obtain ⟨hcursor, henv⟩ := hquiet s a s' hok
  rw [IsAt, hcursor, henv]
  exact hat

lemma agreeIf_bind_kind {f : Kind → Check γ} {g : Kind → Check δ}
    (hf : ∀ here, kindAt? r.tokens i = some here →
      K.AgreeIf least (IsAt i t) S (f here) (g here)) :
    K.AgreeIf least (IsAt i t) S (kind >>= f) (kind >>= g) := by
  refine AgreeIf.bind (Q := fun here s => kindAt? r.tokens i = some here ∧ IsAt i t s)
    agree_kind.agreeIf (fun s here s' hs hat hok => ?_) fun here _ h s hs hQ => ?_
  · cases hok
    exact ⟨(kindAt?_of_fits hs hat).2, hat⟩
  · exact h ▸ hf here hQ.1 s hs hQ.2

/-- The token that is read stands at the place, and the cursor is after it unless it is the end. -/
lemma agreeIf_bind_advance {f : Token → Check γ} {g : Token → Check δ}
    (hf : ∀ token j, r.tokens[i]? = some token → (j = if token.kind = .eof then i else i + 1) →
      K.AgreeIf least (IsAt j t) S (f token) (g (r.token token))) :
    K.AgreeIf least (IsAt i t) S (advance >>= f) (advance >>= g) := by
  refine AgreeIf.bind
    (Q := fun token s => r.tokens[i]? = some token ∧
      IsAt (if token.kind = .eof then i else i + 1) t s)
    agree_advance.agreeIf (fun s token s' hs hat hok => ?_) fun token _ h s hs hQ => ?_
  · cases hok
    refine ⟨(kindAt?_of_fits hs hat).1, ?_, hat.2⟩
    show s.cursor.advance.index = _
    rw [← hat.1]
    split
    case isTrue heof => rw [Cursor.advance_eq_of_eof heof]
    case isFalse hne => rw [Cursor.advance_eq_of_ne hne]
  · rw [h.2]
    exact hf token _ hQ.1 rfl s hs hQ.2

lemma agreeIf_bind_require {known : Kind} {f : Token → Check γ} {g : Token → Check δ}
    (hknown : known ≠ .eof)
    (hf : ∀ token, kindAt? r.tokens i = some known →
      K.AgreeIf least (IsAt (i + 1) t) S (f token) (g (r.token token))) :
    K.AgreeIf least (IsAt i t) S (require known >>= f) (require known >>= g) := by
  refine AgreeIf.bind
    (Q := fun _ s => kindAt? r.tokens i = some known ∧ IsAt (i + 1) t s)
    agree_require.agreeIf (fun s token s' hs hat hok => ?_) fun token _ h s hs hQ => ?_
  · obtain ⟨hkind, rfl⟩ := require_ok hok
    refine ⟨hkind ▸ (kindAt?_of_fits hs hat).2, ?_, hat.2⟩
    show s.cursor.advance.index = i + 1
    rw [Cursor.advance_eq_of_ne (hkind ▸ hknown), ← hat.1]
  · rw [h.2]
    exact hf token hQ.1 s hs hQ.2

/-- A class that is found under a name has this name in the table, unless the name means a class by
the place where it stands. -/
lemma classNamed?_ok {name : String} {owner : Option ClassId} {s s' : State}
    (h : classNamed? name s = .ok owner s') :
    (∀ id, owner = some id → isRelativeName name = true ∨ s.env.classes.idOf? name = some id) ∧
      s' = s := by
  rw [classNamed?, bind_of_ok (get_run s)] at h
  split at h
  case isTrue hself =>
    cases h
    refine ⟨fun _ _ => .inl ?_, rfl⟩
    rw [isRelativeName, hself, Bool.true_or]
  case isFalse =>
    split at h
    case isTrue hparent =>
      cases h
      refine ⟨fun _ _ => .inl ?_, rfl⟩
      rw [isRelativeName, hparent, Bool.or_true]
    case isFalse =>
      cases h
      exact ⟨fun _ hid => .inr hid, rfl⟩

lemma agreeIf_bind_classNamed? {name : String} {f : Option ClassId → Check γ}
    {g : Option ClassId → Check δ}
    (hf : ∀ owner, (∀ id, owner = some id → isRelativeName name = true ∨ t.idOf? name = some id) →
      K.AgreeIf least (IsAt i t) S (f owner) (g owner)) :
    K.AgreeIf least (IsAt i t) S (classNamed? name >>= f) (classNamed? name >>= g) := by
  refine AgreeIf.bind
    (Q := fun owner s => (∀ id, owner = some id →
      isRelativeName name = true ∨ t.idOf? name = some id) ∧ IsAt i t s)
    agree_classNamed?.agreeIf (fun s owner s' hs hat hok => ?_) fun owner _ h s hs hQ => ?_
  · obtain ⟨hmeant, rfl⟩ := classNamed?_ok hok
    exact ⟨hat.2 ▸ hmeant, hat⟩
  · exact h ▸ hf owner hQ.1 s hs hQ.2

end Check

end ScriptCheck
