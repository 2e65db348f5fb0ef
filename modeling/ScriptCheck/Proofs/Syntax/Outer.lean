import ScriptCheck.Proofs.Syntax.Stmt

/-!
The tokens outside of braces.

Declarations outside of braces are looked for ahead of the statements, by the tokens they start with
(`Cursor.startsDeclaration`). `OuterStep` says what the statements take outside of braces: tokens at
which no declaration starts, blocks, whole declarations, and `class` after `::`, which is taken for a
declaration if it is met ahead. Statements go by these steps (`walks_stmt_outer`). All of them have
balanced braces, so that the number of open braces stays the same (`Cursor.Balanced.depth_eq`).
-/

namespace ScriptCheck

open Relation

namespace Cursor

variable {c d e : Cursor}

/-! ### Open braces -/

/-- The number of open braces before a place. -/
def depthBefore (tokens : Array Token) (i : Nat) : Nat :=
  (tokens.toList.take i).foldl (fun depth token => Check.depthAfter depth token.kind) 0

/-- The number of open braces before the cursor. -/
def depth (c : Cursor) : Nat :=
  depthBefore c.tokens c.index

lemma depth_advance (hc : c.IsProper) (hne : c.kind ≠ .eof) :
    c.advance.depth = Check.depthAfter c.depth c.kind := by
  have hlt : c.index < c.tokens.toList.length := by simpa using hc.inside
  rw [depth, depth, depthBefore, depthBefore, advance_eq_of_ne hne, List.take_add_one,
    List.getElem?_eq_getElem hlt, Option.toList_some, List.foldl_append, kind, current_eq hc.inside]
  rfl

lemma depthAfter_of_not_isBrace {kind : Kind} (h : kind.isBrace = false) (depth : Nat) :
    Check.depthAfter depth kind = depth := by
  cases kind <;> first | rfl | cases h

lemma Balanced.depth_eq (h : Balanced c d) (hc : c.IsProper) : d.depth = c.depth := by
  induction h with
  | refl => rfl
  | token hbrace _ ih =>
      rw [ih hc.advance, depth_advance hc (ne_eof_of_not_isBrace hbrace),
        depthAfter_of_not_isBrace hbrace]
  | block hopen hinside hclose _ ihinside ihrest =>
      have hd := (hinside.closeAt_eq hc.advance 1 le_rfl).1
      rw [ihrest hd.advance, depth_advance hd (by simp [hclose]), ihinside hc.advance,
        depth_advance hc (by simp [hopen]), hopen, hclose]
      rfl

/-! ### Starts of declarations -/

/-- The kind of the token at the cursor, or of the token after the annotation there. -/
def leadingKind (c : Cursor) : Kind :=
  if c.kind == .openNote then c.kindAfterNote else c.kind

/-- A declaration starts at the cursor, by the tokens there. -/
def startsDeclaration (c : Cursor) : Bool :=
  Check.startsClass c.leadingKind || c.leadingKind == .kwFunction && c.startsNamedFunction

lemma leadingKind_eq (h : c.kind ≠ .openNote) : c.leadingKind = c.kind := by
  rw [leadingKind, if_neg (by simpa using h)]

lemma startsDeclaration_of_leadingKind (hclass : Check.startsClass c.leadingKind = false)
    (hfunction : c.leadingKind ≠ .kwFunction) : c.startsDeclaration = false := by
  rw [startsDeclaration, hclass, beq_eq_false_iff_ne.mpr hfunction]
  rfl

lemma startsDeclaration_of_isSimple (h : c.kind.isSimple = true) : c.startsDeclaration = false := by
  have hnote : c.kind ≠ .openNote := by
    intro hnote
    rw [hnote] at h
    cases h
  refine startsDeclaration_of_leadingKind ?_ ?_
  all_goals
    rw [leadingKind_eq hnote]
    revert h
    cases c.kind <;> simp [Kind.isSimple, Check.startsClass]

lemma startsNamedFunction_eq (hc : c.IsProper) (h : c.kind ≠ .openNote) :
    c.startsNamedFunction =
      (c.kind == .kwFunction && firstKind (c.rest.drop 1) == .name) := by
  have hnote : ¬ (c.kindAhead 0 == Kind.openNote) = true := by simpa [kindAhead_zero hc] using h
  rw [startsNamedFunction, if_neg hnote, firstKind_rest hc]

/-- What starts after an annotation starts with it. -/
lemma starts_of_note (hc : c.IsProper) (hopen : c.kind = .openNote)
    (hcontent : ReflTransGen SimpleStep c.advance d) (hclose : d.kind = .closeNote)
    (hnext : d.advance.kind ≠ .openNote) :
    c.leadingKind = d.advance.kind ∧ c.startsNamedFunction = d.advance.startsNamedFunction := by
  obtain ⟨hd, hafter⟩ := afterNote_eq hc hopen hcontent hclose
  constructor
  · rw [leadingKind, if_pos (beq_iff_eq.mpr hopen), kindAfterNote, hafter, firstKind_rest hd]
  · have hnote : (c.kindAhead 0 == Kind.openNote) = true := by simp [kindAhead_zero hc, hopen]
    rw [startsNamedFunction_eq hd hnext, startsNamedFunction, if_pos hnote, hafter, firstKind_rest hd]

end Cursor

namespace Check

open Cursor

variable {known : ClassTable} {c d e : Cursor} {s t : State} {n : Nat}

/-! ### Steps outside of braces -/

/-- What statements take outside of braces. Declarations are taken in a state in which a table of
classes is known. -/
inductive OuterStep (known : ClassTable) (c : Cursor) : Cursor → Prop
  | token (hplain : c.startsDeclaration = false) (hbrace : c.kind.isBrace = false) :
      OuterStep known c c.advance
  | access (hclass : c.kind = .kwClass) (hcolons : c.FollowsColons) : OuterStep known c c.advance
  | block {d : Cursor} (hopen : c.kind = .openCurly) (hinside : Balanced c.advance d)
      (hclose : d.kind = .closeCurly) : OuterStep known c d.advance
  | ofFunction {n : Nat} {s t : State} {b : Unit} (hcursor : s.cursor = c)
      (hknown : known.Grows s.env.classes) (hleads : c.leadingKind = .kwFunction)
      (hnamed : c.startsNamedFunction = true) (hrun : functionHere (stmtWithin n) s = .ok b t)
      (hunbroken : t.log.IsUnbroken) : OuterStep known c t.cursor
  | ofClass {n : Nat} {s t : State} {h : OpenClass} (hcursor : s.cursor = c)
      (hknown : known.Grows s.env.classes) (hleads : startsClass c.leadingKind = true)
      (hrun : classDeclaration (some (stmtWithin n)) s = .ok h t) (hunbroken : t.log.IsUnbroken) :
      OuterStep known c t.cursor

lemma OuterStep.of_simple (h : SimpleStep c d) : OuterStep known c d := by
  obtain ⟨hsimple, rfl⟩ := h
  exact .token (startsDeclaration_of_isSimple hsimple) (isBrace_of_isSimple hsimple)

lemma OuterStep.of_expr (h : ExprStep c d) : OuterStep known c d := by
  cases h with
  | simple hsimple => exact .of_simple ⟨hsimple, rfl⟩
  | access hclass hcolons => exact .access hclass hcolons

lemma OuterStep.balanced (h : OuterStep known c d) (hc : c.IsProper) : Balanced c d := by
  cases h with
  | token _ hbrace => exact .single hbrace
  | access hclass _ => exact .single (by rw [hclass]; rfl)
  | block hopen hinside hclose => exact .block hopen hinside hclose (.refl _)
  | @ofFunction n s t b hcursor hknown _ _ hrun hunbroken =>
      subst hcursor
      have hstmt : Walks known Balanced (stmtWithin n) := walks_stmtWithin_balanced n
      have hwalks := (mirrors_functionAhead hstmt).walks
      exact .of_path id ((hwalks s trivial hc hknown).2.2 b t hrun fun _ => hunbroken)
  | @ofClass n s t h hcursor hknown _ hrun hunbroken =>
      subst hcursor
      have hstmt : Walks known Balanced (stmtWithin n) := walks_stmtWithin_balanced n
      have hwalks := walks_classDeclaration hstmt
      exact .of_path id ((hwalks s trivial hc hknown).2.2 h t hrun fun _ => hunbroken)

lemma admitsStmts_outer : AdmitsStmts (OuterStep known) where
  expr := .of_expr
  block := .block

/-! ### Annotations and headers -/

/-- An annotation of no declaration is taken token by token. -/
lemma path_of_note (hplain : c.startsDeclaration = false) (hopen : c.kind = .openNote)
    (hcontent : ReflTransGen SimpleStep c.advance d) (hclose : d.kind = .closeNote) :
    ReflTransGen (OuterStep known) c d.advance := by
  have hlast : OuterStep known d d.advance := by
    refine .token (startsDeclaration_of_leadingKind ?_ ?_) (by rw [hclose]; rfl)
    all_goals
      rw [leadingKind_eq (by simp [hclose]), hclose]
      decide
  have hinside : ReflTransGen (OuterStep known) c.advance d :=
    ReflTransGen.mono (fun _ _ => .of_simple) _ _ hcontent
  exact .head (.token hplain (by rw [hopen]; rfl)) (hinside.tail hlast)

/-- What can stand after an annotation in a header. -/
lemma kind_of_header (h : ReflTransGen HeaderStep c e) (he : e.kind = .openCurly)
    (hcolons : ¬ c.FollowsColons) :
    c.kind = .openCurly ∨ c.kind = .openNote ∨ c.kind.isSimple = true := by
  rcases h.cases_head with rfl | ⟨d, hstep, -⟩
  · exact .inl he
  · cases hstep with
    | expr hexpr =>
        cases hexpr with
        | simple hsimple => exact .inr (.inr hsimple)
        | access _ haccess => exact absurd haccess hcolons
    | note hopen _ _ => exact .inr (.inl hopen)

lemma not_followsColons_advance (hc : c.IsProper) (h : c.kind = .closeNote) :
    ¬ c.advance.FollowsColons := by
  rintro ⟨i, hindex, hkind⟩
  rw [advance_eq_of_ne (by simp [h])] at hindex hkind
  obtain rfl : c.index = i := by simpa using hindex
  have hcurrent := congrArg Token.kind (current_eq hc.inside)
  rw [Array.getElem?_eq_getElem hc.inside, Option.map_some, Option.some_inj, ← hcurrent] at hkind
  cases h.symm.trans hkind

/-- The tokens of a header before a body are taken one by one: no declaration starts at them. -/
lemma path_of_header (h : ReflTransGen HeaderStep c e) (hc : c.IsProper) (he : e.kind = .openCurly) :
    ReflTransGen (OuterStep known) c e := by
  induction h using ReflTransGen.head_induction_on with
  | refl => exact .refl
  | @head c c' hstep hrest ih =>
      cases hstep with
      | expr hexpr =>
          have hc' : c'.IsProper := ((Balanced.of_expr hexpr).closeAt_eq hc 1 le_rfl).1
          exact .head (.of_expr hexpr) (ih hc')
      | @note d hopen hcontent hclose =>
          have hd : d.IsProper := (dropWhile_rest_of_simple hc.advance hcontent).1
          refine (path_of_note ?_ hopen hcontent hclose).trans (ih hd.advance)
          obtain ⟨hd', hafter⟩ := afterNote_eq hc hopen hcontent hclose
          have hleading : c.leadingKind = d.advance.kind := by
            rw [leadingKind, if_pos (beq_iff_eq.mpr hopen), kindAfterNote, hafter, firstKind_rest hd']
          have hnext := kind_of_header hrest he (not_followsColons_advance hd hclose)
          refine startsDeclaration_of_leadingKind ?_ ?_
          all_goals
            rw [hleading]
            rcases hnext with hnext | hnext | hnext
            · rw [hnext]
              decide
            · rw [hnext]
              decide
            · revert hnext
              cases d.advance.kind <;> simp [Kind.isSimple, startsClass]

/-! ### Functions without a name after the word -/

lemma startsDeclaration_of_unnamed (hleads : c.leadingKind = .kwFunction)
    (hunnamed : c.startsNamedFunction = false) : c.startsDeclaration = false := by
  rw [startsDeclaration, hleads, hunnamed]
  rfl

/-- The annotation before such a function is one of no declaration. -/
lemma path_of_note? {leading : Option Note} (hs : s.cursor.IsProper)
    (hunnamed : s.cursor.startsNamedFunction = false) (hrun : note? s = .ok leading t)
    (hnext : t.cursor.kind = .kwFunction) :
    ReflTransGen (OuterStep known) s.cursor t.cursor ∧ t.cursor.startsNamedFunction = false := by
  obtain ⟨here, s₁, hkind, hrun⟩ := exists_of_bind hrun
  cases hkind
  split at hrun
  · obtain ⟨read, s₂, hread, hrun⟩ := exists_of_bind hrun
    cases hrun
    obtain ⟨hopen, d, hcontent, hclose, hend⟩ := exists_of_note hs hread
    rw [hend] at hnext ⊢
    obtain ⟨hleads, hnamed⟩ := starts_of_note hs hopen hcontent hclose (by simp [hnext])
    have hplain := startsDeclaration_of_unnamed (hleads.trans hnext) hunnamed
    exact ⟨path_of_note hplain hopen hcontent hclose, hnamed.symm.trans hunnamed⟩
  · cases hrun
    exact ⟨.refl, hunnamed⟩

/-- A function is not looked for ahead if its name does not follow the word `function`. Its tokens
are then taken one by one, and its body as a block. -/
lemma path_of_functionHere {b : Unit} (hs : s.cursor.IsProper)
    (hunnamed : s.cursor.startsNamedFunction = false)
    (hrun : functionHere (stmtWithin n) s = .ok b t) (hunbroken : t.log.IsUnbroken) :
    ReflTransGen (OuterStep known) s.cursor t.cursor := by
  have hstmt : Walks (⟨[]⟩ : ClassTable) Balanced (stmtWithin n) := walks_stmtWithin_balanced n
  obtain ⟨leading, s₁, hnote, hrun⟩ := exists_of_bind hrun
  obtain ⟨h, s₂, hheader, hrun⟩ := exists_of_bind hrun
  obtain ⟨u, s₃, henter, hbody⟩ := exists_of_bind hrun
  obtain ⟨rest, heq, hrest⟩ := header_eq leading
  rw [heq] at hheader
  obtain ⟨word, s₁', hword, hheader⟩ := exists_of_bind hheader
  obtain ⟨hkind, rfl⟩ := require_ok hword
  have hadmits : AdmitsHeaders (⟨[]⟩ : ClassTable) HeaderStep := admitsHeaders_header
  -- every part goes on from where the one before it has ended
  have hextends₁ : Extends s s₁ := by
    have hextends := ((mirrors_note? hadmits).walks s trivial hs (.empty _)).1
    rwa [hnote] at hextends
  have hs₁ := hextends₁.proper
  obtain ⟨hextends₂, -, hpath₂⟩ := (hrest hadmits word).walks
    { s₁ with cursor := s₁.cursor.advance } trivial hs₁.advance (.empty _)
  rw [hheader] at hextends₂
  obtain ⟨u', s₃', henter', hstays⟩ := (steady_enterFunction Extent.statement_ne h).rests s₂
  cases henter'.symm.trans henter
  have hextends₃ := hextends₂.trans (hstays.extends hextends₂.proper)
  obtain ⟨hextends₄, -⟩ := walks_routineBody admitsBlocks_balanced hstmt h none false s₃ trivial
    hextends₃.proper (.empty _)
  rw [hbody] at hextends₄
  have hunbroken₃ := hunbroken.of_isPrefix hextends₄.log
  obtain ⟨hpath₁, hunnamed₁⟩ := path_of_note? hs hunnamed hnote hkind
  have hplain : s₁.cursor.startsDeclaration = false :=
    startsDeclaration_of_unnamed (by rw [leadingKind_eq (by simp [hkind]), hkind]) hunnamed₁
  obtain ⟨d, hopen, hinside, hclose, hend⟩ := exists_of_routineBody hstmt hextends₃.proper (.empty _)
    hbody hunbroken
  rw [hstays.cursor] at hopen hinside
  have hheaderPath := hpath₂ h s₂ hheader fun _ => hunbroken₃.of_isPrefix hstays.log
  have hbodyPath : ReflTransGen (OuterStep known) s₁.cursor.advance t.cursor := by
    rw [hend]
    exact (path_of_header hheaderPath hs₁.advance hopen).tail (.block hopen hinside hclose)
  exact hpath₁.trans (.head (.token hplain (by rw [hkind]; rfl)) hbodyPath)

/-! ### Statements -/

lemma walks_functionStatement_outer :
    WalksAt (·.leadingKind = .kwFunction) known (OuterStep known)
      (functionStatement (stmtWithin n)) := by
  have hhere : WalksAt (·.leadingKind = .kwFunction) known (OuterStep known)
      (functionHere (stmtWithin n)) := by
    have hstmt : Walks known Balanced (stmtWithin n) := walks_stmtWithin_balanced n
    refine (mirrors_functionAhead hstmt).walks.along fun s b t hleads hs hknown hrun hunbroken => ?_
    cases hnamed : s.cursor.startsNamedFunction with
    | true => exact .single (.ofFunction rfl hknown hleads hnamed hrun hunbroken)
    | false => exact path_of_functionHere hs hnamed hrun hunbroken
  rw [functionStatement_eq]
  exact hhere.bind fun _ => .pure

lemma walks_classStatement_outer :
    WalksAt (fun c => startsClass c.leadingKind = true) known (OuterStep known)
      (classStatement (stmtWithin n)) := by
  have hhere : WalksAt (fun c => startsClass c.leadingKind = true) known (OuterStep known)
      (classDeclaration (some (stmtWithin n))) := by
    have hstmt : Walks known Balanced (stmtWithin n) := walks_stmtWithin_balanced n
    exact (walks_classDeclaration hstmt).along fun s h t hleads _ hknown hrun hunbroken =>
      .single (.ofClass rfl hknown hleads hrun hunbroken)
  exact hhere.bind fun h =>
    .rest (steady_checkInheritance Extent.statement_ne h.id).rests fun _ => .pure

lemma walks_note_outer :
    WalksAt (·.startsDeclaration = false) known (OuterStep known) note := by
  have hwalks : Walks known Balanced note := balanced_note.walks
  refine hwalks.along fun s b t hplain hs _ hrun _ => ?_
  obtain ⟨hopen, d, hcontent, hclose, hend⟩ := exists_of_note hs hrun
  rw [hend]
  exact path_of_note hplain hopen hcontent hclose

lemma walks_annotatedStatement_outer :
    WalksAt (·.kind = .openNote) known (OuterStep known) (annotatedStatement (stmtWithin n)) := by
  have hleading : ∀ c a : Cursor, c.kind = .openNote ∧ id c = a → c.leadingKind = a.kindAfterNote := by
    rintro c a ⟨hopen, rfl⟩
    rw [leadingKind, if_pos (beq_iff_eq.mpr hopen)]
    rfl
  refine .onPeek (F := id) (fun _ => rfl) fun a => ?_
  dsimp only
  split
  case isTrue hfunction =>
    exact walks_functionStatement_outer.strengthen fun c hc =>
      (hleading c a hc).trans (beq_iff_eq.mp hfunction)
  case isFalse hfunction =>
    split
    case isTrue hclass =>
      refine walks_classStatement_outer.strengthen fun c hc => ?_
      rw [hleading c a hc]
      exact hclass
    case isFalse hclass =>
      refine walks_variableStatement admitsStmts_outer (walks_note_outer.strengthen fun c hc => ?_)
      refine startsDeclaration_of_leadingKind ?_ ?_
      all_goals rw [hleading c a hc]
      · exact Bool.eq_false_iff.mpr hclass
      · exact fun heq => hfunction (beq_iff_eq.mpr heq)

lemma leadingKind_of_startsClass (h : startsClass c.kind = true) :
    startsClass c.leadingKind = true := by
  rw [leadingKind_eq]
  · exact h
  · intro hnote
    rw [hnote] at h
    cases h

lemma walks_stmtWithin_outer (depth : Nat) : Walks known (OuterStep known) (stmtWithin depth) := by
  induction depth with
  | zero => exact .spent
  | succ depth ih =>
      have hfunction : WalksAt (·.kind = .kwFunction) known (OuterStep known)
          (functionStatement (stmtWithin depth)) :=
        walks_functionStatement_outer.strengthen fun c hc => by
          rw [leadingKind_eq (by simp [hc]), hc]
      exact (walks_byKind admitsStmts_outer ih (walks_stmtWithin_balanced depth) hfunction
        (walks_classStatement_outer.strengthen fun c => leadingKind_of_startsClass)
        walks_annotatedStatement_outer).recover

lemma walks_stmt_outer : Walks known (OuterStep known) stmt :=
  .rest peeks_bound.rests fun depth => walks_stmtWithin_outer depth

end Check

end ScriptCheck
