import ScriptCheck.Proofs.Recovery.Decl

/-!
Statements keep braces balanced, unless there is a slip.

A statement that does not start with a closing brace takes balanced tokens, also if something in it
broke off and was passed over, as long as the file goes on after it and there is no slip on the way
(`broken_statement_keeps_block`). So the block around it ends where it would have ended.
-/

namespace ScriptCheck

open Cursor

namespace Check

variable {I : Cursor → Prop} {s t : State}

/-! ### Statements without statements inside -/

lemma balances_expr {power : Power} : Balances (expr power) :=
  ((mirrors_expr power).mono .of_expr).walks.balances

lemma balances_condition : Balances condition :=
  (walks_condition admitsStmts_balanced).balances

lemma balances_exprs {close : Kind} (h : close.isSimple = true) : Balances (exprs close) :=
  (walks_exprs admitsStmts_balanced h).balances

/-! ### Bodies -/

/-- A body that does not start with a closing brace is balanced. -/
lemma balances_body {m : Check Exits} (hm : BalancesAt (·.kind ≠ .closeCurly) m)
    (hwalks : Walks (⟨[]⟩ : ClassTable) Balanced m) : BalancesOn BodyDue m :=
  .of_slips (S := fun s => s.cursor.kind = .closeCurly) (fun _ => .body) hwalks hm

/-- If the token was there, it would have been taken if it was required. -/
lemma require_of_takes {kind : Kind} (h : takes kind s = .ok true t) :
    require kind s = .ok s.cursor.current t := by
  by_cases hkind : s.cursor.kind = kind
  · rw [takes_of_kind hkind] at h
    cases h
    exact require_of_kind hkind
  · rw [takes_of_ne hkind] at h
    cases h

lemma balances_countedHead : Balances countedHead :=
  (balances_require rfl).bind fun _ => (balances_require rfl).bind fun _ =>
    (balances_exprs rfl).bind fun _ => (balances_exprs rfl).bind fun _ =>
      (balances_exprs rfl).bind fun _ => .pure

lemma balances_iteratedHead : Balances iteratedHead := by
  refine (balances_require rfl).bind fun _ => (balances_require rfl).bind fun _ => ?_
  refine balances_expr.bind fun subject => (balances_require rfl).bind fun _ => ?_
  refine .rest steady_iterationTypes.rests fun types => ?_
  refine TracesAt.bind (walks_loopVariables admitsStmts_balanced).balances fun _ => ?_
  exact (balances_require rfl).bind fun _ => .pure

lemma balances_guardedBy {word : Kind} (h : word.isBrace = false) : Balances (guardedBy word) :=
  (balances_require h).bind fun _ => balances_condition

/-! ### Compound statements -/

/-- A condition is due, after a word that a branch starts with. -/
def BranchDue (s : State) : Prop :=
  ∃ word ∈ [Kind.kwIf, .kwElseIf], ∃ r token, require word r = .ok token s

section

variable {depth : Nat} (hstmt : BalancesAt (·.kind ≠ .closeCurly) (stmtWithin depth))
include hstmt

lemma balances_branchesFrom (fuel : Nat) (found : Branches) :
    BalancesOn BranchDue (branchesFrom (stmtWithin depth) fuel found) := by
  induction fuel generalizing found with
  | zero => exact TracesAt.spent.on
  | succ fuel ih =>
      refine balances_condition.on.bindOn (Q := fun _ => BodyDue) (fun s facts t hdue _ hrun => ?_)
        fun facts => ?_
      · obtain ⟨word, hword, r, token, hrequire⟩ := hdue
        have hword' : word ∈ [Kind.kwIf, .kwElseIf, .kwWhile] := by
          revert hword
          simp only [List.mem_cons, List.not_mem_nil, or_false]
          tauto
        exact .guarded hword' ((bind_of_ok hrequire).trans hrun)
      · refine (balances_body hstmt (walks_stmtWithin_balanced depth)).bind fun body => ?_
        refine (balances_takes rfl).bindOn (Q := fun more s => more = true → BranchDue s)
          (fun s more t _ _ hrun hmore => ?_) fun more => ?_
        · subst hmore
          exact ⟨.kwElseIf, by simp, s, _, require_of_takes hrun⟩
        · split
          case isTrue hmore => exact (ih _).strengthen fun s hs => hs hmore
          case isFalse => exact TracesAt.pure.on

lemma balances_ifStatement : Balances (ifStatement (stmtWithin depth)) := by
  refine (balances_require rfl).bindOn (Q := fun _ => BranchDue)
    (fun s token t _ _ hrun => ⟨.kwIf, by simp, s, token, hrun⟩) fun _ => ?_
  refine .peek peeks_bound fun fuel => (balances_branchesFrom hstmt fuel _).bind fun found => ?_
  refine (balances_takes rfl).bindOn (Q := fun hasElse s => hasElse = true → BodyDue s)
    (fun s hasElse t _ _ hrun helse => ?_) fun hasElse => ?_
  · subst helse
    exact .plain (by simp) (require_of_takes hrun)
  · split
    case isTrue helse =>
      have hbody := balances_body hstmt (walks_stmtWithin_balanced depth)
      exact (hbody.strengthen fun s hs => hs helse).bind fun _ => .pure
    case isFalse => exact TracesAt.pure.on

lemma balances_loopBody : BalancesOn BodyDue (inLoop (stmtWithin depth)) :=
  balances_body hstmt.inLoop (walks_stmtWithin_balanced depth).inLoop

lemma balances_whileStatement : Balances (whileStatement (stmtWithin depth)) := by
  have heq : whileStatement (stmtWithin depth) = guardedBy .kwWhile >>= fun facts =>
      position >>= fun start => inLoop (stmtWithin depth) >>= fun body =>
        loopExits body facts.truth start >>= fun exits =>
          pure (exits.alsoRaising facts.raises) := by
    simp only [whileStatement, guardedBy, bind_assoc]
  rw [heq]
  refine (balances_guardedBy rfl).bindOn (Q := fun _ => BodyDue)
    (fun s facts t _ _ hrun => .guarded (by simp) hrun) fun facts => ?_
  refine .peek peeks_position fun start => (balances_loopBody hstmt).bind fun body => ?_
  exact .of_rests (by grind)

lemma balances_doStatement : Balances (doStatement (stmtWithin depth)) := by
  refine (balances_require rfl).bindOn (Q := fun _ => BodyDue)
    (fun s token t _ _ hrun => .plain (by simp) hrun) fun _ => ?_
  refine (balances_loopBody hstmt).bind fun body => (balances_require rfl).bind fun _ => ?_
  exact balances_condition.bind fun _ => (balances_require rfl).bind fun _ => .pure

lemma balances_forStatement : Balances (forStatement (stmtWithin depth)) := by
  have heq : ∃ rest : List Facts → List Facts → List Facts → Position → Exits → Check Exits,
      forStatement (stmtWithin depth) = (countedHead >>= fun heads => position >>= fun start =>
        inLoop (stmtWithin depth) >>= rest heads.1 heads.2.1 heads.2.2 start) ∧
      ∀ first conditions steps start body, Rests (rest first conditions steps start body) := by
    refine ⟨?rest, ?split, ?rests⟩
    case split =>
      simp only [forStatement, countedHead, bind_assoc, pure_bind]
      rfl
    case rests =>
      intro first conditions steps start body
      exact steady_loopExits.rests.bind fun _ => .pure
  obtain ⟨rest, heq, hrest⟩ := heq
  rw [heq]
  refine balances_countedHead.bindOn (Q := fun _ => BodyDue)
    (fun s heads t _ _ hrun => .counted hrun) fun heads => ?_
  refine .peek peeks_position fun start => (balances_loopBody hstmt).bind fun body => ?_
  exact .of_rests (hrest _ _ _ _ _)

lemma balances_foreachStatement : Balances (foreachStatement (stmtWithin depth)) := by
  have heq : foreachStatement (stmtWithin depth) = iteratedHead >>= fun subject =>
      inLoop (stmtWithin depth) >>= fun body =>
        pure ((body.loop none).alsoRaising subject.raises) := by
    simp only [foreachStatement, iteratedHead, bind_assoc, pure_bind]
  rw [heq]
  refine balances_iteratedHead.bindOn (Q := fun _ => BodyDue)
    (fun s subject t _ _ hrun => .iterated hrun) fun subject => ?_
  exact (balances_loopBody hstmt).bind fun _ => .pure

lemma balances_groupsFrom (fuel : Nat) (found : Groups) :
    Balances (groupsFrom (stmtWithin depth) fuel found) := by
  have hlabel : ∀ found, Balances (label found) :=
    fun found => (walks_label admitsStmts_balanced found).balances
  induction fuel generalizing found with
  | zero => exact .spent
  | succ fuel ih =>
      refine .rest rests_kind fun here => ?_
      split
      · exact .pure
      · refine (hlabel found).bind fun found => (balances_takes rfl).bind fun isShort => ?_
        extract_lets next
        have hnext : ∀ u, Balances (next u) :=
          fun u => (balances_statements hstmt (by simp)).bind fun exits => ih _
        split
        · exact hnext ()
        · exact (balances_require rfl).bind fun _ => hnext ()

omit hstmt in
/-- The groups of a switch are read up to its closing brace. -/
lemma kind_of_groupsFrom {stmt : StmtReader} {fuel : Nat} {found groups : Groups}
    (hrun : groupsFrom stmt fuel found s = .ok groups t) : t.cursor.kind = .closeCurly := by
  induction fuel generalizing found s with
  | zero => cases hrun
  | succ fuel ih =>
      rw [groupsFrom, bind_of_ok (kind_run s)] at hrun
      split at hrun
      case isTrue hclose =>
        cases hrun
        exact beq_iff_eq.mp hclose
      case isFalse =>
        obtain ⟨found', s₁, -, hrun⟩ := exists_of_bind hrun
        obtain ⟨isShort, s₂, -, hrun⟩ := exists_of_bind hrun
        dsimp only at hrun
        split at hrun
        · obtain ⟨exits, s₃, -, hrun⟩ := exists_of_bind hrun
          exact ih hrun
        · obtain ⟨_, s₃, -, hrun⟩ := exists_of_bind hrun
          obtain ⟨exits, s₄, -, hrun⟩ := exists_of_bind hrun
          exact ih hrun

/-- A label that is broken inside the braces is a slip. -/
lemma balances_switchStatement : Balances (switchStatement (stmtWithin depth)) := by
  have heq : switchStatement (stmtWithin depth) = guardedBy .kwSwitch >>= fun subject =>
      inBraces (groups (stmtWithin depth)) >>= fun found =>
        pure ((Exits.switch found.bodies found.hasDefault).alsoRaising
          (subject.raises ∪ found.raises)) := by
    simp only [switchStatement, guardedBy, groups, inBraces, bind_assoc, pure_bind]
  rw [heq]
  refine (balances_guardedBy rfl).bindOn
    (Q := fun subject t => ∃ s, guardedBy .kwSwitch s = .ok subject t)
    (fun s subject t _ _ hrun => ⟨s, hrun⟩) fun subject => ?_
  have hgroups : Balances (groups (stmtWithin depth)) :=
    TracesAt.inLoop (.rest peeks_bound.rests fun fuel => balances_groupsFrom hstmt fuel _)
  refine (TracesOn.inBraces (Q := fun _ => True) (fun _ _ _ => trivial) hgroups ?_ ?_).bind
    fun _ => .pure
  · rintro s fault t ⟨r, hhead⟩ hopen hrun
    exact .label hhead hopen hrun
  · intro s found t _ _ hrun
    rw [groups, inLoop] at hrun
    obtain ⟨u, hbody, rfl⟩ := exists_of_within hrun
    obtain ⟨fuel, s₁, -, hfrom⟩ := exists_of_bind hbody
    have hkind : u.cursor.kind = .closeCurly := kind_of_groupsFrom hfrom
    exact .inl hkind

lemma balances_tryStatement : Balances (tryStatement (stmtWithin depth)) := by
  have hblock := balances_block hstmt
  have htypes : ∀ fuel found, Balances (caughtTypes fuel found) :=
    fun fuel found => (walks_caughtTypes admitsStmts_balanced fuel found).balances
  have hclause : Balances (catchClause (stmtWithin depth)) := by
    refine (balances_require rfl).bind fun _ => (balances_require rfl).bind fun _ => ?_
    refine .rest peeks_bound.rests fun fuel => (htypes fuel _).bind fun types => ?_
    refine (balances_require rfl).bind fun name => (balances_require rfl).bind fun _ => ?_
    refine .rest steady_caughtType.rests fun type => ?_
    refine .rest (Steady.setVariable _ _ _ Extent.statement_ne).rests fun _ => ?_
    exact hblock.bind fun _ => .pure
  have hclauses : ∀ fuel, Balances (catchClauses (stmtWithin depth) fuel) := by
    intro fuel
    induction fuel with
    | zero => exact .spent
    | succ fuel ih =>
        refine .rest rests_kind fun here => ?_
        split
        · exact hclause.bind fun _ => ih.bind fun _ => .pure
        · exact .pure
  have hlast : Balances (finalBlock? (stmtWithin depth)) := by
    refine (balances_takes rfl).bind fun hasFinal => ?_
    split
    · exact hblock.bind fun _ => .pure
    · exact .pure
  refine (balances_require rfl).bind fun keyword => hblock.bind fun body => ?_
  refine .rest peeks_bound.rests fun fuel => (hclauses fuel).bind fun clauses => ?_
  refine hlast.bind fun last => ?_
  split
  · exact .of_refuses (.failAt_bind (.misplaced _ _) peeks_positionOf)
  · exact .of_rests (by grind)

/-! ### The reader of statements -/

lemma balances_annotatedStatement :
    BalancesAt (·.kind = .openNote) (annotatedStatement (stmtWithin depth)) := by
  refine .onPeek (F := id) (fun _ => rfl) fun c => ?_
  dsimp only
  split
  · exact (balances_functionStatement hstmt).here
  · split
    case isTrue hclass =>
      refine (balances_classStatement hstmt).strengthen fun d hd => ?_
      obtain ⟨hkind, rfl⟩ := hd
      exact .inr ⟨hkind, hclass⟩
    case isFalse =>
      exact (walks_variableStatement admitsStmts_balanced balanced_note.walks).balances.here

lemma balances_byKind : Balances (byKind (stmtWithin depth)) := by
  refine .onKind fun here => ?_
  have hclass : ∀ k, startsClass k = true →
      BalancesAt (fun c => True ∧ c.kind = k) (classStatement (stmtWithin depth)) := fun k hk =>
    (balances_classStatement hstmt).strengthen fun c hc => .inl (hc.2 ▸ hk)
  split
  · exact (balances_block hstmt).here
  · exact (balances_ifStatement hstmt).here
  · exact (balances_whileStatement hstmt).here
  · exact (balances_doStatement hstmt).here
  · exact (balances_forStatement hstmt).here
  · exact (balances_foreachStatement hstmt).here
  · exact (balances_switchStatement hstmt).here
  iterate 2 exact (walks_jump admitsStmts_balanced (.ofKind rfl)).balances
  · exact (walks_returnStatement admitsStmts_balanced).balances.here
  · exact (walks_throwStatement admitsStmts_balanced).balances.here
  · exact (walks_exitStatement admitsStmts_balanced).balances.here
  · exact (balances_tryStatement hstmt).here
  · exact (walks_echo admitsStmts_balanced).balances.here
  · exact (balances_require rfl).bind fun _ => .pure
  · exact (balances_functionStatement hstmt).here
  iterate 4 exact hclass _ rfl
  · exact (walks_constStatement admitsStmts_balanced).balances.here
  · exact (balances_annotatedStatement hstmt).strengthen fun c hc => hc.2
  · split
    · exact (walks_exprStatement admitsStmts_balanced).balances.here
    · exact .of_refuses refuses_reject

omit hstmt in
/-- A block that breaks off does so after its opening brace. -/
lemma lt_index_of_block {fault : Fault} (hs : s.cursor.IsProper)
    (hopen : s.cursor.kind = .openCurly)
    (hrun : block (stmtWithin depth) s = .error (.fault fault) t) :
    s.cursor.index < t.cursor.index := by
  have hne : s.cursor.kind ≠ .eof := by simp [hopen]
  have hwalks : Walks (⟨[]⟩ : ClassTable) (fun _ _ => True) (do
      let exits ← statements (stmtWithin depth) [.closeCurly]
      let _ ← require .closeCurly
      return exits) :=
    (walks_statements ((walks_stmtWithin_balanced depth).mono fun _ => trivial) _).bind fun _ =>
      (walks_require fun _ _ _ => trivial).bind fun _ => .pure
  rw [block, bind_of_ok (require_of_kind hopen)] at hrun
  obtain ⟨hreach, -⟩ := hwalks { s with cursor := s.cursor.advance } trivial hs.advance (.empty _)
  rw [hrun] at hreach
  exact lt_of_lt_of_le (lt_advance_index hne) hreach.onward.le

end

/-- A statement that does not start with a closing brace keeps braces balanced. -/
lemma balances_stmtWithin (depth : Nat) :
    BalancesAt (·.kind ≠ .closeCurly) (stmtWithin depth) := by
  induction depth with
  | zero => exact .spent
  | succ depth ih =>
      refine TracesOn.recover (balances_byKind ih).on fun s fault t hclose hs hrun hindex => ?_
      by_cases hopen : s.cursor.kind = .openCurly
      · -- a block does not break off at its first token
        rw [byKind, bind_of_ok (kind_run s), hopen] at hrun
        exact absurd hindex (lt_index_of_block hs hopen hrun).ne'
      · by_cases heof : s.cursor.kind = .eof
        · exact .inl heof
        · refine .inr (.inl ?_)
          by_contra hbrace
          exact (brace_of_isBrace hbrace heof).elim hopen hclose

/-- The tokens are balanced, and the block around the first cursor ends where the one around the
second does. -/
structure KeepsBlock (c d : Cursor) : Prop where
  balanced : IsBalanced (taken c d)
  around : closeAt 1 c = closeAt 1 d

lemma KeepsBlock.of_balanced {c d : Cursor} (hc : c.IsProper) (h : Balanced c d) : KeepsBlock c d :=
  ⟨(h.isBalanced hc).2.2, (h.closeAt_eq hc 1 le_rfl).2.2⟩

/-- **Recovery keeps braces balanced, apart from four slips.** A statement that starts neither with
a closing brace nor at the end of the file is read or passed over. If nothing in it broke off, its
braces are balanced. Whatever broke off, they are balanced unless the file ends in it or there is a
slip on the way; then the block around it ends where it would have ended. -/
theorem broken_statement_keeps_block (s : State) (hs : s.cursor.IsProper)
    (hclose : s.cursor.kind ≠ .closeCurly) (heof : s.cursor.kind ≠ .eof) :
    ∃ exits s', stmt s = .ok exits s' ∧
      (s'.log.IsUnbroken → KeepsBlock s.cursor s'.cursor) ∧
      (s'.cursor.kind ≠ .eof →
        KeepsBlock s.cursor s'.cursor ∨ ∃ t, Extends s t ∧ Extends t s' ∧ Slips t) := by
  obtain ⟨exits, s', hrun, -⟩ := exists_stmt hs heof
  refine ⟨exits, s', hrun, fun hunbroken => ?_, fun hend => ?_⟩
  · have hwalks : Walks (⟨[]⟩ : ClassTable) Balanced stmt :=
      .rest peeks_bound.rests fun depth => walks_stmtWithin_balanced depth
    obtain ⟨-, -, hpath⟩ := hwalks s trivial hs (.empty _)
    exact .of_balanced hs (.of_path id (hpath exits s' hrun fun _ => hunbroken))
  · have hbalances : BalancesAt (·.kind ≠ .closeCurly) stmt :=
      .rest peeks_bound.rests fun depth => balances_stmtWithin depth
    have hspans := hbalances s s' hclose hs (.ok hrun)
    exact (hspans.braces.resolve_left hend).imp_left (.of_balanced hs)

/-- Tokens of the kinds, and the end of the file. -/
def aheadOf (kinds : List Kind) : State where
  cursor := {
    file := "main"
    tokens := (kinds.map fun kind => ⟨kind, "", 0, 0⟩).toArray.push ⟨.eof, "", 0, 0⟩ }

lemma isProper_aheadOf {kinds : List Kind} (h : .eof ∉ kinds) :
    (aheadOf kinds).cursor.IsProper where
  inside := by simp [aheadOf]
  ends i hi := by
    have hsize : (aheadOf kinds).cursor.tokens.size = kinds.length + 1 := by simp [aheadOf]
    rw [hsize] at hi ⊢
    by_cases hlt : i < kinds.length
    · have hne : kinds[i] ≠ .eof := fun heof => h (heof ▸ List.getElem_mem hlt)
      simpa [aheadOf, Array.getElem_push, hlt, hlt.ne] using hne
    · have hlast : i = kinds.length := by omega
      simp [aheadOf, hlast]

/-- A block with a statement without its semicolon, before another one: `{ 1 1; };` -/
def brokenBlock : List Kind :=
  [.openCurly, .number, .number, .semicolon, .closeCurly, .semicolon]

/-- The block is read to its end. -/
theorem broken_statement_keeps_block_brokenBlock :
    ∃ exits s', stmt (aheadOf brokenBlock) = .ok exits s' ∧ s'.cursor.index = 5 ∧
      (KeepsBlock (aheadOf brokenBlock).cursor s'.cursor ∨
        ∃ t, Extends (aheadOf brokenBlock) t ∧ Extends t s' ∧ Slips t) := by
  obtain ⟨exits, s', hrun, -, hkeeps⟩ := broken_statement_keeps_block (aheadOf brokenBlock)
    (isProper_aheadOf (by decide)) (by decide) (by decide)
  have hend : (endState (stmt (aheadOf brokenBlock))).cursor.index = 5 ∧
      (endState (stmt (aheadOf brokenBlock))).cursor.kind ≠ .eof := by decide +kernel
  rw [hrun] at hend
  exact ⟨exits, s', hrun, hend.1, hkeeps hend.2⟩

/-- The statement ahead starts neither with a closing brace nor at the end of the file and is read
up to a token before that end, with a brace on the way that has no partner. -/
structure Unbalances (kinds : List Kind) : Prop where
  proper : (aheadOf kinds).cursor.IsProper
  starts : (aheadOf kinds).cursor.kind ∉ [.closeCurly, .eof]
  ends : ∃ exits s', stmt (aheadOf kinds) = .ok exits s' ∧ s'.cursor.kind ≠ .eof ∧
    ¬IsBalanced (taken (aheadOf kinds).cursor s'.cursor)

lemma Unbalances.of_counts {kinds : List Kind} (hkinds : .eof ∉ kinds)
    (hstart : (aheadOf kinds).cursor.kind ∉ [.closeCurly, .eof])
    (hend : (endState (stmt (aheadOf kinds))).cursor.kind ≠ .eof ∧
      closed (taken (aheadOf kinds).cursor (endState (stmt (aheadOf kinds))).cursor) ≠
        opened (taken (aheadOf kinds).cursor (endState (stmt (aheadOf kinds))).cursor)) :
    Unbalances kinds := by
  have hs := isProper_aheadOf hkinds
  have heof : (aheadOf kinds).cursor.kind ≠ .eof := fun h => hstart (by simp [h])
  obtain ⟨exits, s', hrun, -⟩ := exists_stmt hs heof
  rw [hrun] at hend
  exact ⟨hs, hstart, exits, s', hrun, hend.1, fun h => hend.2 h.even⟩

/-- No label where one is due: `switch (1) { f; };` -/
def brokenLabel : List Kind :=
  [.kwSwitch, .openParen, .number, .closeParen, .openCurly, .name, .semicolon, .closeCurly,
    .semicolon]

/-- A closing brace where a body is due: `while (1) };;` -/
def brokenBody : List Kind :=
  [.kwWhile, .openParen, .number, .closeParen, .closeCurly, .semicolon, .semicolon]

/-- An opening brace where a member is due: `class A { {; } };` -/
def brokenMember : List Kind :=
  [.kwClass, .name, .openCurly, .openCurly, .semicolon, .closeCurly, .closeCurly, .semicolon]

/-- A brace where the name of a member is due: `$x->};;` -/
def brokenName : List Kind :=
  [.var, .arrow, .closeCurly, .semicolon, .semicolon]

/-- Each of the slips leaves a brace without its partner. -/
theorem slips_unbalance_braces : Unbalances brokenLabel ∧ Unbalances brokenBody ∧
    Unbalances brokenMember ∧ Unbalances brokenName :=
  ⟨.of_counts (by decide) (by decide) (by decide +kernel),
    .of_counts (by decide) (by decide) (by decide +kernel),
    .of_counts (by decide) (by decide) (by decide +kernel),
    .of_counts (by decide) (by decide) (by decide +kernel)⟩

end Check

end ScriptCheck
