import ScriptCheck.Proofs.Syntax.Decl

/-!
The tokens that statements take.

Besides declarations and annotations, a statement has tokens of expressions, and blocks in braces. So
it goes by any steps that admit these (`AdmitsStmts`), if declarations and annotations do
(`walks_byKind`). In particular its braces are balanced (`walks_stmtWithin_balanced`).
-/

namespace ScriptCheck

open Cursor

namespace Check

/-! ### Steps of statements -/

/-- Tokens of expressions and blocks are steps. -/
structure AdmitsStmts (step : Cursor → Cursor → Prop) : Prop where
  expr : ∀ {c d}, ExprStep c d → step c d
  block : AdmitsBlocks step

lemma admitsStmts_balanced : AdmitsStmts Balanced where
  expr := .of_expr
  block := admitsBlocks_balanced

variable {α : Type} {w : Tracking} {known : ClassTable} {P : Cursor → Prop}
  {step : Cursor → Cursor → Prop} {stmt : StmtReader} (hstep : AdmitsStmts step)
include hstep

/-! ### Statements without statements inside -/

lemma AdmitsStmts.require {kind : Kind} {f : Token → Check α} (h : kind.isSimple = true)
    (hf : ∀ token, Walks w step (f token)) : WalksAt P w step (Check.require kind >>= f) :=
  (walks_require fun _ _ hkind => hstep.expr (.simple (hkind ▸ h))).bind hf

lemma AdmitsStmts.takes {kind : Kind} {f : Bool → Check α} (h : kind.isSimple = true)
    (hf : ∀ taken, Walks w step (f taken)) : WalksAt P w step (Check.takes kind >>= f) :=
  (walks_takes fun _ _ hkind => hstep.expr (.simple (hkind ▸ h))).bind hf

lemma AdmitsStmts.advance (hP : SimpleAt P) : WalksAt P w step advance :=
  (mirrors_advance fun c hc => hstep.expr (.simple (hP c hc))).walks

lemma AdmitsStmts.walks_expr (power : Power) : Walks w step (Check.expr power) :=
  (mirrors_expr power).walks.mono hstep.expr

lemma walks_condition : Walks w step condition :=
  hstep.require rfl fun _ => (hstep.walks_expr _).bind fun _ =>
    hstep.require rfl fun _ => .pure

lemma walks_exprsFrom (close : Kind) (fuel : Nat) : Walks w step (exprsFrom close fuel) := by
  induction fuel with
  | zero => exact .spent
  | succ fuel ih =>
      refine .rest rests_kind fun here => ?_
      split
      · exact .pure
      · refine (hstep.walks_expr _).bind fun facts => hstep.takes rfl fun more => ?_
        split
        · exact ih.bind fun _ => .pure
        · exact .pure

lemma walks_exprs {close : Kind} (h : close.isSimple = true) : Walks w step (exprs close) :=
  .rest peeks_bound.rests fun fuel => (walks_exprsFrom hstep close fuel).bind fun _ =>
    hstep.require h fun _ => .pure

lemma walks_exprStatement : Walks w step exprStatement :=
  (hstep.walks_expr _).bind fun _ => hstep.require rfl fun _ => .pure

lemma walks_echo : Walks w step echo :=
  hstep.require rfl fun _ => (walks_exprs hstep rfl).bind fun _ => .pure

lemma walks_emptyStatement : Walks w step emptyStatement :=
  hstep.require rfl fun _ => .pure

lemma walks_jumpLevel {keyword : String} : Walks w step (jumpLevel keyword) := by
  refine .onKind fun here => ?_
  split
  case isFalse => exact .pure
  case isTrue hnumber =>
    obtain rfl : here = .number := beq_iff_eq.mp hnumber
    refine (hstep.advance (.ofKind rfl)).bind fun token => ?_
    split
    · exact .pure
    · exact (Refuses.failAt (.misplaced _ _) peeks_positionOf).walks

lemma walks_jump (hP : SimpleAt P) {exits : Nat → Exits} :
    WalksAt P w step (jump exits) := by
  refine (hstep.advance hP).bind fun keyword => (walks_jumpLevel hstep).bind fun level => ?_
  exact hstep.require rfl fun _ => .of_rests (by grind)

lemma walks_returnStatement : Walks w step returnStatement := by
  have hvalue : Walks w step returnedValue? := by
    refine .rest rests_kind fun here => ?_
    split
    · exact .pure
    · exact (hstep.walks_expr _).bind fun _ => .pure
  refine hstep.require rfl fun keyword => hvalue.bind fun value => ?_
  exact hstep.require rfl fun _ => .of_rests (by grind)

lemma walks_throwStatement : Walks w step throwStatement := by
  refine hstep.require rfl fun _ => (hstep.walks_expr _).bind fun exception => ?_
  exact hstep.require rfl fun _ => .of_rests (by grind)

lemma walks_exitStatement : Walks w step exitStatement := by
  refine hstep.require rfl fun _ => hstep.takes rfl fun hasArgs => ?_
  extract_lets finish
  have hfinish : ∀ args, Walks w step (finish args) :=
    fun args => hstep.require rfl fun _ => .pure
  split
  · exact (walks_exprs hstep rfl).bind hfinish
  · exact hfinish _

lemma walks_constantsFrom (fuel : Nat) : Walks w step (constantsFrom fuel) := by
  induction fuel with
  | zero => exact .spent
  | succ fuel ih =>
      refine hstep.require rfl fun name => hstep.require rfl fun _ => ?_
      refine (hstep.walks_expr _).bind fun value => ?_
      refine .rest (steady_addConstant Extent.statement_ne).rests fun _ => ?_
      refine hstep.takes rfl fun more => ?_
      split
      · exact ih.bind fun _ => .pure
      · exact .pure

lemma walks_constStatement : Walks w step constStatement :=
  hstep.require rfl fun _ => .rest peeks_bound.rests fun fuel =>
    (walks_constantsFrom hstep fuel).bind fun _ => hstep.require rfl fun _ => .pure

lemma walks_variablesFrom (type : Ty) (fuel : Nat) : Walks w step (variablesFrom type fuel) := by
  induction fuel with
  | zero => exact .spent
  | succ fuel ih =>
      refine hstep.require rfl fun name => ?_
      refine .rest (Steady.setVariable _ _ _ Extent.statement_ne).rests fun _ => ?_
      refine hstep.takes rfl fun hasValue => ?_
      extract_lets next
      have hnext : ∀ raises, Walks w step (next raises) := by
        intro raises
        refine hstep.takes rfl fun more => ?_
        split
        · exact ih.bind fun _ => .pure
        · exact .pure
      split
      · refine (hstep.walks_expr _).bind fun value => .rest steady_checkType.rests fun _ => ?_
        exact hnext _
      · exact hnext _

lemma walks_variableStatement (hnote : WalksAt P w step note) :
    WalksAt P w step variableStatement := by
  refine hnote.bind fun read => ?_
  split
  · refine .rest steady_noteType.rests fun type => .rest peeks_bound.rests fun fuel => ?_
    refine (walks_variablesFrom hstep type fuel).bind fun _ => ?_
    exact hstep.require rfl fun _ => .pure
  · exact (Refuses.failAt .variableNote peeks_position).walks

/-! ### Parts of compound statements -/

lemma walks_loopVariables {keyType elementType : Ty} :
    Walks w step (loopVariables keyType elementType) := by
  refine hstep.takes rfl fun _ => hstep.require rfl fun first => ?_
  refine hstep.takes rfl fun hasKey => ?_
  split
  · refine hstep.takes rfl fun _ => hstep.require rfl fun second => ?_
    exact .of_rests (by grind)
  · exact .of_rests (steady_setLoopVariable Extent.statement_ne).rests

lemma walks_label (found : Groups) : Walks w step (label found) := by
  refine .onKind fun here => ?_
  split
  · refine (hstep.advance (.ofKind rfl)).bind fun _ => ?_
    exact (hstep.walks_expr _).bind fun _ => .pure
  · exact (hstep.advance (.ofKind rfl)).bind fun _ => .pure
  · exact refuses_reject.walks

lemma walks_caughtTypes (fuel : Nat) (found : CaughtTypes) :
    Walks w step (caughtTypes fuel found) := by
  induction fuel generalizing found with
  | zero => exact .spent
  | succ fuel ih =>
      refine hstep.require rfl fun name => .rest steady_classNamed?.rests fun id => ?_
      extract_lets next
      have hnext : ∀ found, Walks w step (next found) := by
        intro found
        refine hstep.takes rfl fun more => ?_
        split
        · exact ih _
        · exact .pure
      split
      · exact hnext _
      · exact .rest rests_positionOf fun _ => .rest (steady_report rfl rfl).rests fun _ => hnext _

/-! ### Compound statements -/

variable (hstmt : Walks known step stmt)
include hstmt

lemma walks_branchesFrom (fuel : Nat) (found : Branches) :
    Walks known step (branchesFrom stmt fuel found) := by
  induction fuel generalizing found with
  | zero => exact .spent
  | succ fuel ih =>
      refine (walks_condition hstep).bind fun facts => hstmt.bind fun body => ?_
      refine hstep.takes rfl fun more => ?_
      split
      · exact ih _
      · exact .pure

lemma walks_ifStatement : Walks known step (ifStatement stmt) := by
  refine hstep.require rfl fun _ => .rest peeks_bound.rests fun fuel => ?_
  refine (walks_branchesFrom hstep hstmt fuel _).bind fun found => ?_
  refine hstep.takes rfl fun hasElse => ?_
  split
  · exact hstmt.bind fun _ => .pure
  · exact .pure

lemma walks_whileStatement : Walks known step (whileStatement stmt) := by
  refine hstep.require rfl fun _ => (walks_condition hstep).bind fun facts => ?_
  refine .rest peeks_position.rests fun start => hstmt.inLoop.bind fun body => ?_
  exact .of_rests (by grind)

lemma walks_doStatement : Walks known step (doStatement stmt) := by
  refine hstep.require rfl fun _ => hstmt.inLoop.bind fun body => ?_
  refine hstep.require rfl fun _ => (walks_condition hstep).bind fun facts => ?_
  exact hstep.require rfl fun _ => .pure

lemma walks_forStatement : Walks known step (forStatement stmt) := by
  refine hstep.require rfl fun _ => hstep.require rfl fun _ => ?_
  refine (walks_exprs hstep rfl).bind fun first => (walks_exprs hstep rfl).bind fun conditions => ?_
  refine (walks_exprs hstep rfl).bind fun steps => ?_
  refine .rest peeks_position.rests fun start => hstmt.inLoop.bind fun body => ?_
  exact .of_rests (by grind)

lemma walks_foreachStatement : Walks known step (foreachStatement stmt) := by
  refine hstep.require rfl fun _ => hstep.require rfl fun _ => ?_
  refine (hstep.walks_expr _).bind fun subject => hstep.require rfl fun _ => ?_
  refine .rest steady_iterationTypes.rests fun types => ?_
  refine (walks_loopVariables hstep).bind fun _ => ?_
  exact hstep.require rfl fun _ => hstmt.inLoop.bind fun _ => .pure

lemma walks_groupsFrom (fuel : Nat) (found : Groups) :
    Walks known step (groupsFrom stmt fuel found) := by
  induction fuel generalizing found with
  | zero => exact .spent
  | succ fuel ih =>
      refine .rest rests_kind fun here => ?_
      split
      · exact .pure
      · refine (walks_label hstep found).bind fun found => hstep.takes rfl fun isShort => ?_
        extract_lets next
        have hnext : ∀ u, Walks known step (next u) :=
          fun u => (walks_statements hstmt _).bind fun exits => ih _
        split
        · exact hnext ()
        · exact hstep.require rfl fun _ => hnext ()

variable (hbalanced : Walks known Balanced stmt)
include hbalanced

omit hstmt in
lemma walks_switchStatement : Walks known step (switchStatement stmt) := by
  have heq : switchStatement stmt = do
      let _ ← require .kwSwitch
      let subject ← condition
      let found ← inBraces (inLoop (bound >>= fun fuel => groupsFrom stmt fuel {}))
      return (Exits.switch found.bodies found.hasDefault).alsoRaising
        (subject.raises ∪ found.raises) := by
    simp only [switchStatement, inBraces, bind_assoc, pure_bind]
  rw [heq]
  refine hstep.require rfl fun _ => (walks_condition hstep).bind fun subject => ?_
  refine (walks_inBraces hstep.block (.inLoop (.rest peeks_bound.rests fun fuel => ?_))).bind
    fun found => .pure
  exact walks_groupsFrom admitsStmts_balanced hbalanced fuel _

omit hstmt in
lemma walks_catchClause : Walks known step (catchClause stmt) := by
  refine hstep.require rfl fun _ => hstep.require rfl fun _ => ?_
  refine .rest peeks_bound.rests fun fuel => (walks_caughtTypes hstep fuel _).bind fun types => ?_
  refine hstep.require rfl fun name => hstep.require rfl fun _ => ?_
  refine .rest steady_caughtType.rests fun type => ?_
  refine .rest (Steady.setVariable _ _ _ Extent.statement_ne).rests fun _ => ?_
  exact (walks_block hstep.block hbalanced).bind fun _ => .pure

omit hstmt in
lemma walks_catchClauses (fuel : Nat) : Walks known step (catchClauses stmt fuel) := by
  induction fuel with
  | zero => exact .spent
  | succ fuel ih =>
      refine .rest rests_kind fun here => ?_
      split
      · exact (walks_catchClause hstep hbalanced).bind fun _ => ih.bind fun _ => .pure
      · exact .pure

omit hstmt in
lemma walks_tryStatement : Walks known step (tryStatement stmt) := by
  have hlast : Walks known step (finalBlock? stmt) := by
    refine hstep.takes rfl fun hasFinal => ?_
    split
    · exact (walks_block hstep.block hbalanced).bind fun _ => .pure
    · exact .pure
  refine hstep.require rfl fun keyword => ?_
  refine (walks_block hstep.block hbalanced).bind fun body => .rest peeks_bound.rests fun fuel => ?_
  refine (walks_catchClauses hstep hbalanced fuel).bind fun clauses => hlast.bind fun last => ?_
  split
  · exact (Refuses.failAt_bind (.misplaced _ _) peeks_positionOf).walks
  · exact .of_rests (by grind)

/-! ### The reader of statements -/

/-- Statements go by the steps, if the declarations and the statements with an annotation among them
do. -/
lemma walks_byKind
    (hfunction : WalksAt (·.kind = .kwFunction) known step (functionStatement stmt))
    (hclass : WalksAt (fun c => startsClass c.kind = true) known step (classStatement stmt))
    (hnoted : WalksAt (·.kind = .openNote) known step (annotatedStatement stmt)) :
    Walks known step (byKind stmt) := by
  refine .onKind fun here => ?_
  split
  · exact walks_block hstep.block hbalanced
  · exact (walks_ifStatement hstep hstmt).here
  · exact (walks_whileStatement hstep hstmt).here
  · exact (walks_doStatement hstep hstmt).here
  · exact (walks_forStatement hstep hstmt).here
  · exact (walks_foreachStatement hstep hstmt).here
  · exact (walks_switchStatement hstep hbalanced).here
  iterate 2 exact walks_jump hstep (.ofKind rfl)
  · exact (walks_returnStatement hstep).here
  · exact (walks_throwStatement hstep).here
  · exact (walks_exitStatement hstep).here
  · exact (walks_tryStatement hstep hbalanced).here
  · exact (walks_echo hstep).here
  · exact (walks_emptyStatement hstep).here
  · exact hfunction.strengthen fun c hc => hc.2
  iterate 4 exact hclass.strengthen fun c hc => hc.2 ▸ rfl
  · exact (walks_constStatement hstep).here
  · exact hnoted.strengthen fun c hc => hc.2
  · split
    · exact (walks_exprStatement hstep).here
    · exact refuses_reject.walks

omit hstep hstmt in
lemma walks_functionStatement_balanced : Walks known Balanced (functionStatement stmt) := by
  rw [functionStatement_eq]
  exact (mirrors_functionAhead hbalanced).walks.bind fun _ => .pure

omit hstep hstmt in
lemma walks_classStatement_balanced : Walks known Balanced (classStatement stmt) :=
  (walks_classDeclaration hbalanced).bind fun h =>
    .rest (steady_checkInheritance Extent.statement_ne h.id).rests fun _ => .pure

omit hstep hstmt hbalanced in
/-- The tokens of a statement have balanced braces. -/
lemma walks_stmtWithin_balanced (depth : Nat) : Walks known Balanced (stmtWithin depth) := by
  induction depth with
  | zero => exact .spent
  | succ depth ih =>
      have hnoted : Walks known Balanced (annotatedStatement (stmtWithin depth)) := by
        refine .onPeek (F := id) (fun _ => rfl) fun c => ?_
        dsimp only
        split
        · exact (walks_functionStatement_balanced ih).here
        · split
          · exact (walks_classStatement_balanced ih).here
          · exact walks_variableStatement admitsStmts_balanced balanced_note.walks.here
      exact (walks_byKind admitsStmts_balanced ih ih (walks_functionStatement_balanced ih).here
        (walks_classStatement_balanced ih).here hnoted.here).recover

end Check

end ScriptCheck
