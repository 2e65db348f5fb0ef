import ScriptCheck.Proofs.Recovery.Spans

/-!
Declarations keep braces balanced.

The token after an annotation is the one by which a statement with an annotation is told
(`kind_of_note`). A function is a header and a block (`balances_functionStatement`). In a class, a
broken member is passed over inside of the braces (`balances_membersFrom`); only a member that starts
with a brace is a slip.
-/

namespace ScriptCheck

open Cursor Relation

namespace Check

variable {I : Cursor → Prop} {s t : State}

/-! ### Headers -/

/-- After an annotation the cursor is where its end was looked up from its start. -/
lemma kind_of_note {read : Note} (hs : s.cursor.IsProper) (hrun : note s = .ok read t) :
    t.cursor.kind = s.cursor.kindAfterNote := by
  obtain ⟨hopen, d, hcontent, hclose, hend⟩ := exists_of_note hs hrun
  obtain ⟨hproper, hafter⟩ := afterNote_eq hs hopen hcontent hclose
  rw [hend, Cursor.kindAfterNote, hafter, firstKind_rest hproper]

lemma balances_header (leading : Option Note) : Balances (header leading) :=
  (mirrors_header leading).walks.balances

lemma rests_openClass (words : ClassWords) : Rests (openClass words) := by
  intro s
  obtain ⟨h, t, hrun, hstays, -⟩ := opensNamed_openClass words s
  exact ⟨h, t, hrun, hstays⟩

/-- A class is declared at the cursor, with or without an annotation before it. -/
def OpensClass (c : Cursor) : Prop :=
  startsClass c.kind = true ∨ c.kind = .openNote ∧ startsClass c.kindAfterNote = true

lemma isBrace_of_startsClass {kind : Kind} (h : startsClass kind = true) :
    kind.isBrace = false := by
  cases kind <;> first | rfl | cases h

lemma balances_classHeader : BalancesAt OpensClass (note? >>= classHeader) := by
  have hnote : Balances note? := (mirrors_note? admitsHeaders_balanced).walks.balances
  refine hnote.here.bindAt (J := fun _ => Ready) (fun s leading t hopens hs hrun => ?_)
    fun leading => ?_
  · rw [note?, bind_of_ok (kind_run s)] at hrun
    split at hrun
    case isTrue hnote =>
      have hkind : s.cursor.kind = .openNote := beq_iff_eq.mp hnote
      obtain ⟨read, t₁, hread, hrun⟩ := exists_of_bind hrun
      cases hrun
      refine .inl (isBrace_of_startsClass ?_)
      rw [kind_of_note hs hread]
      rcases hopens with hstarts | ⟨-, hstarts⟩
      · rw [hkind] at hstarts
        cases hstarts
      · exact hstarts
    case isFalse hnote =>
      cases hrun
      rcases hopens with hstarts | ⟨hkind, -⟩
      · exact .inl (isBrace_of_startsClass hstarts)
      · exact absurd (beq_iff_eq.mpr hkind) hnote
  · rw [classHeader_eq]
    have hwords : BalancesAt Ready (classWords leading) :=
      (mirrors_classWords (fun _ _ => id) leading).walks.balances
    exact hwords.bind fun words => .of_rests (rests_openClass words)

/-! ### Blocks and bodies -/

lemma faultless_stmtWithin (depth : Nat) : Faultless (stmtWithin depth) := by
  cases depth with
  | zero => exact faultless_spent
  | succ depth => exact faultless_recover

section

variable {depth : Nat} (hstmt : BalancesAt (·.kind ≠ .closeCurly) (stmtWithin depth))
include hstmt

/-- No statement is read from a brace that closes the block around it. -/
lemma balances_statements {ends : List Kind} (hends : .closeCurly ∈ ends) :
    Balances (statements (stmtWithin depth) ends) := by
  have hfrom : ∀ fuel exits reported,
      Balances (statementsFrom (stmtWithin depth) ends fuel exits reported) := by
    intro fuel
    induction fuel with
    | zero => exact fun _ _ => .spent
    | succ fuel ih =>
        intro exits reported
        refine .onKind fun here => ?_
        split
        case isTrue => exact .pure
        case isFalse hgoes =>
          have hne : here ≠ .closeCurly := by
            rintro rfl
            simp [hends] at hgoes
          refine .rest peeks_position.rests fun start => ?_
          refine .rest peeks_declarationAhead.rests fun isDeclaration => ?_
          refine (hstmt.strengthen fun c hc => by rwa [hc.2]).bind fun next => ?_
          split
          · exact ih _ _
          · split
            · exact ih _ _
            · exact .rest steady_reportUnreachable.rests fun _ => ih _ _
  exact .rest peeks_bound.rests fun fuel => hfrom fuel _ _

lemma balances_block : Balances (block (stmtWithin depth)) := by
  refine TracesOn.inBraces (Q := fun _ => True) (fun _ _ _ => trivial)
    (balances_statements hstmt (by simp)) (fun s fault t _ _ hrun => ?_)
    fun s exits t _ _ hrun => ?_
  · exact absurd hrun (faultless_statements (faultless_stmtWithin depth) _ _ _ _)
  · obtain ⟨fuel, s₁, hbound, hrun⟩ := exists_of_bind hrun
    simpa [or_comm] using kind_of_statementsFrom fuel hrun

lemma balances_routineBody (h : RoutineHeader) (owner : Option ClassId) (isStatic : Bool) :
    Balances (routineBody (stmtWithin depth) h owner isStatic) := by
  refine TracesAt.bind (.inRoutine _ ?_) fun exits => .of_rests (steady_checkExit h exits).rests
  exact .rest (steady_setParams Extent.statement_ne _ _).rests fun _ => balances_block hstmt

lemma balances_functionStatement : Balances (functionStatement (stmtWithin depth)) := by
  have hnote : Balances note? := (mirrors_note? admitsHeaders_balanced).walks.balances
  refine hnote.bind fun leading => (balances_header leading).bind fun h => ?_
  refine .rest (steady_enterFunction Extent.statement_ne h).rests fun _ => ?_
  exact (balances_routineBody hstmt h none false).bind fun _ => .pure

/-! ### Classes -/

lemma balances_classMethod (h : OpenClass) (marks : MemberMarks) :
    Balances (classMethod (some (stmtWithin depth)) h marks) := by
  refine (balances_header marks.note).bind fun found => .rest steady_classDef.rests fun decl => ?_
  extract_lets -underBinder isAbstract method
  refine .rest (steady_addMember Extent.statement_ne (.method _)).rests fun _ => ?_
  refine (balances_takes rfl).bind fun isShort => ?_
  split
  · exact .pure
  · split
    · exact .of_refuses (.peek peeks_current fun token => .failAt_bind (.misplaced _ _) peeks_position)
    · exact .rest steady_className.rests fun name => balances_routineBody hstmt _ _ _

lemma balances_classMember (h : OpenClass) :
    Balances (classMember (some (stmtWithin depth)) h) := by
  refine .rest peeks_bound.rests fun fuel => ?_
  have hmarks : Balances (memberMarksFrom fuel {}) := (mirrors_memberMarksFrom fuel _).walks.balances
  refine hmarks.bind fun marks => .rest rests_kind fun here => ?_
  split
  · exact (mirrors_classConstants h h marks).walks.balances
  · exact balances_classMethod hstmt h marks
  iterate 3 exact (mirrors_classProperties h h marks).walks.balances
  exact .of_refuses refuses_reject

/-- A broken member is passed over inside of the braces of its class, unless it starts with a brace.
-/
lemma balances_membersFrom (h : OpenClass) (fuel : Nat) :
    BalancesOn (MemberDue depth h) (membersFrom (some (stmtWithin depth)) h fuel) := by
  induction fuel with
  | zero => exact TracesAt.spent.on
  | succ fuel ih =>
      refine .onKind fun here => ?_
      split
      case isTrue => exact TracesAt.pure.on
      case isFalse hgoes =>
        simp only [Bool.or_eq_true, beq_iff_eq, not_or] at hgoes
        have hmember := balances_classMember hstmt h
        refine TracesOn.bindOn (Q := fun _ => MemberDue depth h)
          (hmember.on.recover fun s fault t hs _ _ _ => ?_) (fun s _ t hs _ hrun => ?_) fun _ => ih
        · obtain ⟨hdue, rfl⟩ := hs
          by_cases hbrace : s.cursor.kind.isBrace = false
          · exact .inr (.inl hbrace)
          · have hopen := (brace_of_isBrace hbrace hgoes.2).resolve_right hgoes.1
            exact .inr (.inr (.member hdue hopen))
        · obtain ⟨hdue, rfl⟩ := hs
          exact .next hdue hgoes.1 hrun

omit hstmt in
/-- Members are read up to the closing brace or the end. -/
lemma kind_of_membersFrom {reader : Option StmtReader} {h : OpenClass} {fuel : Nat} {u : Unit}
    (hrun : membersFrom reader h fuel s = .ok u t) :
    t.cursor.kind = .closeCurly ∨ t.cursor.kind = .eof := by
  induction fuel generalizing s with
  | zero => cases hrun
  | succ fuel ih =>
      rw [membersFrom, bind_of_ok (kind_run s)] at hrun
      split at hrun
      case isTrue hends =>
        cases hrun
        simpa using hends
      case isFalse =>
        obtain ⟨_, s₁, -, hrun⟩ := exists_of_bind hrun
        exact ih hrun

omit hstmt in
lemma faultless_membersFrom {reader : Option StmtReader} (h : OpenClass) (fuel : Nat) :
    Faultless (membersFrom reader h fuel) := by
  induction fuel with
  | zero => exact faultless_spent
  | succ fuel ih =>
      refine peeks_kind.faultless.bind fun here => ?_
      split
      · exact .pure
      · exact faultless_recover.bind fun _ => ih

lemma balances_classStatement : BalancesAt OpensClass (classStatement (stmtWithin depth)) := by
  have heq : classStatement (stmtWithin depth) = (note? >>= classHeader) >>= fun h =>
      inClass h.id (inBraces (bound >>= membersFrom (some (stmtWithin depth)) h)) >>= fun _ =>
        checkInheritance h.id >>= fun _ => pure .passing := by
    simp only [classStatement, classDeclaration, classBody, inBraces, bind_assoc, pure_bind]
  rw [heq]
  refine TracesOn.bindOn (Q := fun h u => ∃ s, (note? >>= classHeader) s = .ok h u)
    balances_classHeader (fun s h u _ _ hrun => ⟨s, hrun⟩) fun h => ?_
  refine TracesOn.bind ?_ fun _ => .of_rests (by grind)
  refine TracesOn.within (Q := fun s => ∃ r u, (note? >>= classHeader) r = .ok h u ∧
      s = { u with inClass := some h.id }) (fun _ => ⟨rfl, rfl, rfl⟩) (fun _ _ => ⟨rfl, rfl, rfl⟩)
    (fun u hu => hu.imp fun r hrun => ⟨u, hrun, rfl⟩) ?_
  refine TracesOn.inBraces (Q := MemberDue depth h) ?_ ?_ (fun s fault t _ _ hrun => ?_)
    fun s _ t _ _ hrun => ?_
  · rintro _ ⟨r, u, hrun, rfl⟩ hopen
    exact MemberDue.first (t := u) hrun hopen
  · exact .peek peeks_bound fun fuel => balances_membersFrom hstmt h fuel
  · have hfaultless : Faultless (bound >>= membersFrom (some (stmtWithin depth)) h) :=
      peeks_bound.faultless.bind fun fuel => faultless_membersFrom h fuel
    exact absurd hrun (hfaultless _ _ _)
  · obtain ⟨fuel, s₁, hbound, hrun⟩ := exists_of_bind hrun
    exact kind_of_membersFrom hrun

end

end Check

end ScriptCheck
