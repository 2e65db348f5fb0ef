import ScriptCheck.Proofs.Syntax.Expr

/-!
The tokens that annotations and the headers of routines take.

An annotation holds simple tokens only, and what it says depends on them alone (`mirrors_note`). The
header of a routine starts with the word `function`; after it there are tokens of expressions and
annotations (`header_eq`), so that it goes by any steps that admit these (`AdmitsHeaders`).
-/

namespace ScriptCheck

open Cursor

namespace Check

variable {w : Tracking} {P : Cursor → Prop} {step : Cursor → Cursor → Prop}

/-! ### Descriptors and names -/

lemma simple_require {kind : Kind} (h : kind.isSimple = true) :
    MirrorsAt P w SimpleStep id (require kind) (require kind) :=
  mirrors_require fun _ _ hkind => ⟨hkind ▸ h, rfl⟩

lemma simple_takes {kind : Kind} (h : kind.isSimple = true) :
    MirrorsAt P w SimpleStep id (takes kind) (takes kind) :=
  mirrors_takes fun _ _ hkind => ⟨hkind ▸ h, rfl⟩

lemma simple_advance {kind : Kind} (h : kind.isSimple = true) :
    MirrorsAt (fun c => P c ∧ c.kind = kind) w SimpleStep id advance advance :=
  mirrors_advance fun _ hc => ⟨hc.2 ▸ h, rfl⟩

lemma mirrors_descriptorTags (fuel : Nat) (text : List Char) :
    Mirrors w SimpleStep id (descriptorTags fuel text) (descriptorTags fuel text) := by
  induction fuel generalizing text with
  | zero => exact .spent
  | succ fuel ih =>
      refine .onKind fun here => ?_
      split
      case isFalse => exact .pure rfl
      case isTrue hbracket =>
        obtain rfl : here = .openBracket := beq_iff_eq.mp hbracket
        refine (simple_advance rfl).bind_eq fun _ => .onKind fun next => ?_
        extract_lets closed
        have hclosed : ∀ key, Mirrors w SimpleStep id (closed key) (closed key) :=
          fun key => (simple_require rfl).bind_eq fun _ => ih _
        split
        case isTrue hname =>
          obtain rfl : next = .name := beq_iff_eq.mp hname
          exact (simple_advance rfl).bind_eq fun token => hclosed _
        case isFalse => exact (hclosed _).here

lemma isSimple_of_startsType {kind : Kind} (h : startsType kind = true) : kind.isSimple = true := by
  cases kind <;> first | rfl | cases h

lemma mirrors_descriptorWithin (depth : Nat) :
    Mirrors w SimpleStep id (descriptorWithin depth) (descriptorWithin depth) := by
  induction depth with
  | zero => exact .spent
  | succ depth ih =>
      refine .onPeek (F := Cursor.current) (fun _ => rfl) fun base => ?_
      extract_lets rest
      split
      case isFalse =>
        exact (Refuses.failAt_bind (.noType _) peeks_positionOf).mirrors
      case isTrue hstarts =>
        have hsimple : ∀ c : Cursor, True ∧ c.current = base → c.kind.isSimple = true := by
          rintro c ⟨-, rfl⟩
          exact isSimple_of_startsType hstarts
        refine (mirrors_advance fun c hc => ⟨hsimple c hc, rfl⟩).bind_eq fun _ => ?_
        refine mirrors_bound.bind_eq fun fuel => ?_
        refine (mirrors_descriptorTags fuel _).bind_eq fun text => ?_
        refine mirrors_kind.bind_eq fun next => ?_
        split
        · exact ih.bind_eq fun element => .pure rfl
        · exact .pure rfl

lemma mirrors_descriptor : Mirrors w SimpleStep id descriptor descriptor :=
  mirrors_bound.bind_eq fun depth => (mirrors_descriptorWithin depth).bind_eq fun _ => .pure rfl

lemma mirrors_nameList (fuel : Nat) :
    Mirrors w SimpleStep id (nameList fuel) (nameList fuel) := by
  induction fuel with
  | zero => exact .spent
  | succ fuel ih =>
      refine (simple_require rfl).bind_eq fun token => (mirrors_positionOf token).bind_eq fun p => ?_
      refine (simple_takes rfl).bind_eq fun more => ?_
      split
      · exact ih.bind_eq fun _ => .pure rfl
      · exact .pure rfl

lemma mirrors_names : Mirrors w SimpleStep id names names :=
  mirrors_bound.bind_eq fun fuel => mirrors_nameList fuel

/-! ### Annotations -/

lemma mirrors_noteContent : Mirrors w SimpleStep id noteContent noteContent := by
  refine .onPeek (F := Cursor.current) (fun _ => rfl) fun token => ?_
  extract_lets isWord
  have hword : ∀ word, isWord word = true → ∀ c : Cursor, True ∧ c.current = token →
      SimpleStep c c.advance := by
    rintro word hword c ⟨-, rfl⟩
    obtain ⟨hname, -⟩ := Bool.and_eq_true_iff.mp hword
    exact ⟨by rw [Cursor.kind, beq_iff_eq.mp hname]; rfl, rfl⟩
  split
  · exact (mirrors_advance (hword _ ‹_›)).bind_eq fun _ => .pure rfl
  · split
    · exact (mirrors_advance (hword _ ‹_›)).bind_eq fun _ => .pure rfl
    · split
      · refine (mirrors_advance (hword _ ‹_›)).bind_eq fun _ => ?_
        exact mirrors_names.bind_eq fun _ => .pure rfl
      · refine mirrors_descriptor.here.bind_eq fun text => ?_
        exact (mirrors_positionOf token).bind_eq fun _ => .pure rfl

/-- An annotation that can be read has simple tokens between its delimiters. -/
lemma exists_of_note {s t : State} {read : Note} (hs : s.cursor.IsProper)
    (hrun : note s = .ok read t) :
    s.cursor.kind = .openNote ∧ ∃ d, Relation.ReflTransGen SimpleStep s.cursor.advance d ∧
      d.kind = .closeNote ∧ t.cursor = d.advance := by
  obtain ⟨opening, s₁, hopen, hrun⟩ := exists_of_bind hrun
  obtain ⟨hkind, rfl⟩ := require_ok hopen
  obtain ⟨content, s₂, hcontent, hrun⟩ := exists_of_bind hrun
  obtain ⟨token, s₃, hcurrent, hrun⟩ := exists_of_bind hrun
  cases hcurrent
  dsimp only at hrun
  split at hrun
  case isFalse => cases hrun
  case isTrue hclose =>
    cases hrun
    have hwalks : Walks .free SimpleStep noteContent := mirrors_noteContent.walks
    obtain ⟨-, -, hpath⟩ := hwalks { s with cursor := s.cursor.advance } trivial hs.advance (.empty _)
    exact ⟨hkind, s₂.cursor, hpath _ _ hcontent (Tracking.goes_free _), beq_iff_eq.mp hclose, rfl⟩

/-- What an annotation says depends on its tokens alone. -/
lemma balanced_note : Mirrors w Balanced id note note := by
  refine (mirrors_require fun _ _ hkind => .single (by rw [hkind]; rfl)).bind_eq fun _ => ?_
  refine (mirrors_noteContent.mono .of_simple).bind_eq fun content => ?_
  refine .onPeek (F := Cursor.current) (fun _ => rfl) fun token => ?_
  extract_lets rest
  split
  case isTrue hclose =>
    refine (mirrors_advance fun c hc => .single ?_).bind_eq fun _ => .pure rfl
    rw [Cursor.kind, hc.2, beq_iff_eq.mp hclose]
    rfl
  case isFalse =>
    exact (Refuses.failAt_bind (.noteEnd _) peeks_positionOf).mirrors

/-- An annotation is one step. -/
lemma mirrors_note {known : ClassTable} : Mirrors known HeaderStep id note note := by
  have hnote : Mirrors known Balanced id note note := balanced_note
  refine ⟨hnote.walks.along fun s b t _ hs _ hrun _ => ?_, hnote.echo⟩
  obtain ⟨hopen, d, hcontent, hclose, hend⟩ := exists_of_note hs hrun
  rw [hend]
  exact .single (.note hopen hcontent hclose)

/-- Tokens of expressions are steps, and annotations are read by steps. -/
structure AdmitsHeaders (w : Tracking) (step : Cursor → Cursor → Prop) : Prop where
  expr : ∀ {c d}, ExprStep c d → step c d
  note : Mirrors w step id note note

lemma admitsHeaders_balanced : AdmitsHeaders w Balanced where
  expr := .of_expr
  note := balanced_note

lemma admitsHeaders_header {known : ClassTable} : AdmitsHeaders known HeaderStep where
  expr := .expr
  note := mirrors_note

/-! ### Parameters -/

section

variable (hstep : AdmitsHeaders w step)
include hstep

lemma mirrors_note? : Mirrors w step id note? note? := by
  refine mirrors_kind.bind_eq fun here => ?_
  split
  · exact hstep.note.bind_eq fun _ => .pure rfl
  · exact .pure rfl

lemma AdmitsHeaders.require {kind : Kind} (h : kind.isSimple = true) :
    MirrorsAt P w step id (require kind) (require kind) :=
  (expr_require h).mono hstep.expr

lemma AdmitsHeaders.takes {kind : Kind} (h : kind.isSimple = true) :
    MirrorsAt P w step id (takes kind) (takes kind) :=
  (expr_takes h).mono hstep.expr

lemma AdmitsHeaders.descriptor : Mirrors w step id descriptor descriptor :=
  mirrors_descriptor.mono fun h => hstep.expr (.of_simple h)

lemma mirrors_paramType? : Mirrors w step nothing paramType? paramType? := by
  refine mirrors_kind.bind_eq fun here => ?_
  split
  · refine hstep.note.bind_eq fun read => ?_
    split
    · exact .resting (by grind) (by grind)
    · exact (Refuses.failAt .paramNote peeks_position).mirrors
  iterate 2
    refine mirrors_position.bind_eq fun start => ?_
    refine hstep.descriptor.bind_eq fun text => ?_
    exact .resting (by grind) (by grind)
  exact .pure rfl

lemma mirrors_ellipsis : Mirrors w step id ellipsis ellipsis := by
  refine .onPeek (F := Cursor.kind) (fun _ => rfl) fun first => ?_
  refine .onPeek (F := fun c => c.kindAhead 1) (fun _ => rfl) fun second => ?_
  refine .onPeek (F := fun c => c.kindAhead 2) (fun _ => rfl) fun third => ?_
  split
  case isFalse => exact .pure rfl
  case isTrue hdots =>
    simp only [Bool.and_eq_true, beq_iff_eq] at hdots
    obtain ⟨⟨rfl, rfl⟩, rfl⟩ := hdots
    have hdot : ∀ c : Cursor, c.kind = .dot → step c c.advance :=
      fun c hc => hstep.expr (.simple (by rw [hc]; rfl))
    refine (mirrors_advance fun c hc => hdot c hc.1.1.2).bindAt
      (Q := fun _ c => c.kind = .dot ∧ c.kindAhead 1 = .dot) ?_ fun _ _ _ => ?_
    · rintro s _ t ⟨⟨⟨-, hfirst⟩, hsecond⟩, hthird⟩ hs hrun
      cases hrun
      have hne : s.cursor.kind ≠ .eof := by simp [hfirst]
      exact ⟨(kind_advance hs hne).trans hsecond, (kindAhead_advance hne 1).trans hthird⟩
    · refine (mirrors_advance fun c hc => hdot c hc.1).bindAt
        (Q := fun _ c => c.kind = .dot) ?_ fun _ _ _ => ?_
      · rintro s _ t ⟨hfirst, hsecond⟩ hs hrun
        cases hrun
        exact (kind_advance hs (by simp [hfirst])).trans hsecond
      · exact (mirrors_advance hdot).bind_eq fun _ => .pure rfl

lemma mirrors_parameter : Mirrors w step Prod.snd parameter parameter := by
  refine (mirrors_paramType? hstep).after fun declared declared' => ?_
  refine (hstep.takes rfl).bind_eq fun byReference => ?_
  refine (mirrors_ellipsis hstep).bind_eq fun isVariadic => ?_
  refine (hstep.require rfl).bind_eq fun name => (hstep.takes rfl).bind_eq fun hasValue => ?_
  extract_lets made
  have hmade : ∀ type type', Mirrors w step Prod.snd (made type) (made type') :=
    fun type type' =>
      .rest steady_typeOrMixed.rests steady_typeOrMixed.rests fun _ _ => .pure rfl
  split
  · refine ((mirrors_expr .comma).mono hstep.expr).bind fun value value' _ => ?_
    exact .rest steady_declaredType?.rests steady_declaredType?.rests hmade
  · exact hmade _ _

lemma mirrors_paramsFrom (fuel : Nat) (params params' : List Parameter) (isVariadic : Bool) :
    Mirrors w step Prod.snd (paramsFrom fuel params isVariadic)
      (paramsFrom fuel params' isVariadic) := by
  induction fuel generalizing params params' isVariadic with
  | zero => exact .spent
  | succ fuel ih =>
      refine mirrors_current.bind_eq fun token => ?_
      split
      · exact .pure rfl
      · split
        · exact (Refuses.failAt (.misplaced _ _) peeks_positionOf).mirrors
        · refine (mirrors_parameter hstep).bind fun read read' hread => ?_
          obtain ⟨param, isVariadic⟩ := read
          obtain ⟨param', isVariadic'⟩ := read'
          obtain rfl : isVariadic = isVariadic' := hread
          refine (hstep.takes rfl).bind_eq fun more => ?_
          split
          · exact ih _ _ _
          · exact .pure rfl

lemma mirrors_params : Mirrors w step nothing params params := by
  refine (hstep.require rfl).bind_eq fun _ => mirrors_bound.bind_eq fun fuel => ?_
  refine (mirrors_paramsFrom hstep fuel [] [] false).bind fun found found' _ => ?_
  exact (hstep.require rfl).bind_eq fun _ => .pure rfl

/-! ### Headers -/

lemma mirrors_resultNote? : Mirrors w step id resultNote? resultNote? := by
  refine (hstep.takes rfl).bind_eq fun hasResult => ?_
  split
  · refine mirrors_position.bind_eq fun start => ?_
    exact hstep.descriptor.bind_eq fun text => .pure rfl
  · exact .pure rfl

lemma mirrors_notesFrom (fuel : Nat) :
    Mirrors w step id (notesFrom fuel) (notesFrom fuel) := by
  induction fuel with
  | zero => exact .spent
  | succ fuel ih =>
      refine mirrors_kind.bind_eq fun here => ?_
      split
      · exact hstep.note.bind_eq fun first => ih.bind_eq fun rest => .pure rfl
      · exact .pure rfl

end

/-- After the word `function` a header has tokens of expressions and annotations. -/
lemma header_eq (leading : Option Note) :
    ∃ rest : Token → Check RoutineHeader, header leading = require .kwFunction >>= rest ∧
      ∀ {w : Tracking} {step : Cursor → Cursor → Prop}, AdmitsHeaders w step → ∀ token,
        Mirrors w step nothing (rest token) (rest token) := by
  refine ⟨_, rfl, fun hstep token => ?_⟩
  refine (hstep.takes rfl).bind_eq fun _ => (hstep.require rfl).bind_eq fun name => ?_
  refine (mirrors_positionOf name).bind_eq fun p => (mirrors_params hstep).after fun found found' => ?_
  refine (mirrors_resultNote? hstep).bind_eq fun result => mirrors_bound.bind_eq fun fuel => ?_
  refine (mirrors_notesFrom hstep fuel).bind_eq fun trailing => ?_
  exact .resting (by grind) (by grind)

end Check

end ScriptCheck
