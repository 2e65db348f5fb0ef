import ScriptCheck.Proofs.Layout.Expr

/-!
The readers of statements agree on relocated tokens, if the reader of statements that they take
does.
-/

namespace ScriptCheck

/-- A reader of statements agrees, wherever the cursor is. -/
abbrev Relocation.Law.AgreeStmt {r : Relocation} (K : r.Law) (stmt : StmtReader) : Prop :=
  ∀ least, K.Alike least Eq stmt

namespace Check

open Relocation.Law (Agree AgreeIf)

variable {r : Relocation} {K : r.Law} {least : Nat} {stmt : StmtReader}

/-! ### Sequences -/

lemma agree_declarationAhead : K.Alike least Eq declarationAhead := by
  refine agree_peek (fun _ => rfl) (fun _ => rfl) fun s hs => ?_
  have hcursor : (r.state s).cursor = r.cursor s.cursor := rfl
  rw [hcursor, r.kind_cursor hs.proper, r.kindAfterNote_cursor, r.startsNamedFunction_cursor]

lemma agree_reportUnreachable (p : Position) :
    K.Agree least Eq (reportUnreachable p) (reportUnreachable (r.position p)) :=
  .look fun _ _ => .ite (fun _ => agree_report rfl p) fun _ => .pure rfl

lemma agree_statementsFrom (hstmt : K.AgreeStmt stmt) (ends : List Kind) (fuel : Nat) (exits : Exits)
    (reported : Bool) : K.Alike least Eq (statementsFrom stmt ends fuel exits reported) := by
  induction fuel generalizing exits reported with
  | zero => exact agree_spent
  | succ fuel ih =>
      refine .onKind fun here => .ite (fun _ => .pure rfl) fun _ => ?_
      refine agree_position.bind_maps fun start => agree_declarationAhead.bind_eq fun isDecl => ?_
      refine (hstmt least).bind_eq fun next => .ite (fun _ => ih _ _) fun _ => ?_
      refine .ite (fun _ => ih _ _) fun _ => ?_
      exact (agree_reportUnreachable start).bind_eq fun _ => ih _ _

lemma agree_statements (hstmt : K.AgreeStmt stmt) (ends : List Kind) :
    K.Alike least Eq (statements stmt ends) :=
  .bound fun n => agree_statementsFrom hstmt ends n _ _

lemma agree_block (hstmt : K.AgreeStmt stmt) : K.Alike least Eq (block stmt) := by
  refine .require fun _ _ => (agree_statements hstmt _).bind_eq fun exits => ?_
  exact .require fun _ _ => .pure rfl

/-! ### Expressions in statements -/

lemma agree_condition : K.Alike least (Maps r.facts) condition := by
  refine .require fun _ _ => agree_expr.bind_maps fun facts => ?_
  exact .require fun _ _ => .pure rfl

lemma agree_exprsFrom (close : Kind) (fuel : Nat) :
    K.Alike least (Maps (List.map r.facts)) (exprsFrom close fuel) := by
  induction fuel with
  | zero => exact agree_spent
  | succ fuel ih =>
      refine .onKind fun here => .ite (fun _ => .pure rfl) fun _ => ?_
      refine agree_expr.bind_maps fun facts => .takes fun more => ?_
      exact .ite (fun _ => ih.bind_maps fun rest => .pure rfl) fun _ => .pure rfl

lemma agree_exprs {close : Kind} : K.Alike least (Maps (List.map r.facts)) (exprs close) := by
  refine .bound fun n => (agree_exprsFrom close n).bind_maps fun found => ?_
  exact .require fun _ _ => .pure rfl

lemma agree_exprStatement : K.Alike least Eq exprStatement := by
  refine agree_expr.bind_maps fun facts => ?_
  exact .require fun _ _ => .pure rfl

lemma agree_echo : K.Alike least Eq echo := by
  refine .require fun _ _ => agree_exprs.bind_maps fun shown => ?_
  rw [r.allRaises_map]
  exact .pure rfl

lemma agree_emptyStatement : K.Alike least Eq emptyStatement :=
  .require fun _ _ => .pure rfl

/-! ### Jumps -/

lemma agree_jumpLevel {keyword : String} : K.Alike least Eq (jumpLevel keyword) := by
  refine .onKind fun here => .ite (fun _ => ?_) fun _ => .pure rfl
  refine .advance fun token _ => ?_
  rw [r.token_value]
  split
  · exact .pure rfl
  · exact .positionOf fun p _ => agree_fail rfl p

lemma agree_jump {exits : Nat → Exits} : K.Alike least Eq (jump exits) := by
  refine .advance fun keyword _ => agree_jumpLevel.bind_eq fun level => ?_
  refine .require fun _ _ => .look fun s hs => ?_
  refine .ite (fun _ => ?_) fun _ => .pure rfl
  refine .positionOf fun p _ => ?_
  exact .report rfl fun _ => .pure rfl

lemma agree_checkReturn (value : Option Facts) (p : Position) :
    K.Agree least Eq (checkReturn value p) (checkReturn (value.map r.facts) (r.position p)) := by
  refine .look fun s hs => ?_
  have hroutine : (r.state s).routine = s.routine := rfl
  rw [hroutine]
  cases s.routine with
  | none => exact .pure rfl
  | some routine =>
      dsimp only
      cases routine.signature.resultType with
      | none =>
          cases value with
          | none => exact .pure rfl
          | some value => exact agree_report rfl p
      | some expected =>
          cases value with
          | none => exact .ite (fun _ => .pure rfl) fun _ => agree_report rfl p
          | some value => exact agree_checkType expected value.type value.position

lemma agree_returnedValue? : K.Alike least (Maps (Option.map r.facts)) returnedValue? := by
  refine .onKind fun here => .ite (fun _ => .pure rfl) fun _ => ?_
  exact agree_expr.bind_maps fun facts => .pure rfl

lemma allRaises_option (value : Option Facts) :
    allRaises (value.map r.facts).toList = allRaises value.toList := by
  cases value <;> rfl

lemma agree_returnStatement : K.Alike least Eq returnStatement := by
  refine .require fun keyword _ => agree_returnedValue?.bind_maps fun value => ?_
  rw [allRaises_option]
  refine .require fun _ _ => .positionOf fun p _ => ?_
  exact (agree_checkReturn value p).bind_eq fun _ => .pure rfl

lemma agree_raisedClass? (exception : Facts) :
    K.Agree least Eq (raisedClass? exception) (raisedClass? (r.facts exception)) := by
  have htype : (r.facts exception).type = exception.type := rfl
  rw [raisedClass?, raisedClass?, htype]
  split
  · exact .pure rfl
  · exact .pure rfl
  · refine agree_classes.bind_maps fun t => ?_
    simp only [ClassTable.idOf?_relocate, ClassTable.isSubclass_relocate]
    refine .ite (fun _ => .pure rfl) fun _ => ?_
    exact .report rfl fun _ => .pure rfl
  · exact .report rfl fun _ => .pure rfl

lemma agree_throwStatement : K.Alike least Eq throwStatement := by
  refine .require fun _ _ => agree_expr.bind_maps fun exception => ?_
  refine .require fun _ _ => ?_
  exact (agree_raisedClass? exception).bind_eq fun raised => .pure rfl

lemma agree_exitStatement : K.Alike least Eq exitStatement := by
  refine .require fun _ _ => .takes fun hasArgs => ?_
  extract_lets rest
  have hrest : ∀ args, K.Agree least Eq (rest args) (rest (args.map r.facts)) := by
    intro args
    simp only [rest, r.allRaises_map]
    exact .require fun _ _ => .pure rfl
  exact .ite (fun _ => agree_exprs.bind_maps hrest) fun _ => hrest []

/-! ### Declarations of constants and variables -/

lemma agree_addConstant {name : String} {type : Ty} :
    K.Alike least Eq (modifyEnv (·.addConstant name type)) :=
  fun s hs => results_changeEnv hs rfl (K.addConstant name type hs.holds)
    (r.addConstant_env s.env name type)

lemma agree_constantsFrom (fuel : Nat) : K.Alike least Eq (constantsFrom fuel) := by
  induction fuel with
  | zero => exact agree_spent
  | succ fuel ih =>
      refine .require fun name _ => .require fun _ _ => ?_
      refine agree_expr.bind_maps fun value => agree_addConstant.bind_eq fun _ => ?_
      refine .takes fun more => .ite (fun _ => ?_) fun _ => .pure rfl
      exact ih.bind_eq fun raises => .pure rfl

lemma agree_constStatement : K.Alike least Eq constStatement := by
  refine .require fun _ _ => .bound fun n => ?_
  refine (agree_constantsFrom n).bind_eq fun raises => ?_
  exact .require fun _ _ => .pure rfl

lemma agree_variablesFrom (type : Ty) (fuel : Nat) :
    K.Alike least Eq (variablesFrom type fuel) := by
  induction fuel with
  | zero => exact agree_spent
  | succ fuel ih =>
      have hrest : ∀ raises : NatSet, K.Alike least Eq
          (do
            if ← takes .comma then
              let rest ← variablesFrom type fuel
              return raises ∪ rest
            else return raises) := fun raises =>
        .takes fun more => .ite (fun _ => ih.bind_eq fun _ => .pure rfl)
          fun _ => .pure rfl
      refine .require fun name _ => agree_setVariable.bind_eq fun _ => ?_
      refine .takes fun hasValue => .ite (fun _ => ?_) fun _ => hrest ∅
      refine agree_expr.bind_maps fun value => ?_
      exact (agree_checkType type value.type value.position).bind_eq fun _ => hrest value.raises

lemma agree_variableStatement : K.Alike least Eq variableStatement := by
  refine agree_note.bind_maps fun content => ?_
  cases content with
  | type descriptor start =>
      refine (agree_noteType descriptor start).bind_eq fun type => .bound fun n => ?_
      refine (agree_variablesFrom type n).bind_eq fun raises => ?_
      exact .require fun _ _ => .pure rfl
  | _ => exact agree_failHere rfl

/-! ### Conditionals -/

lemma guarded_relocate (t : ClassTable) (body : Exits) (clauses : List Handler)
    (last : Option Exits) :
    Exits.guarded (t.relocate r.origin) body clauses last = Exits.guarded t body clauses last := by
  simp only [Exits.guarded, uncaught, ClassTable.isSubclass_relocate]

section Compound

variable (hstmt : K.AgreeStmt stmt)
include hstmt

lemma agree_branchesFrom (fuel : Nat) (found : Branches) :
    K.Alike least Eq (branchesFrom stmt fuel found) := by
  induction fuel generalizing found with
  | zero => exact agree_spent
  | succ fuel ih =>
      refine agree_condition.bind_maps fun facts => (hstmt least).bind_eq fun body => ?_
      refine .takes fun more => ?_
      exact .ite (fun _ => ih (found.add facts body)) fun _ => .pure rfl

lemma agree_ifStatement : K.Alike least Eq (ifStatement stmt) := by
  refine .require fun _ _ => .bound fun n => ?_
  refine (agree_branchesFrom hstmt n _).bind_eq fun found => .takes fun hasLast => ?_
  exact .ite (fun _ => (hstmt least).bind_eq fun last => .pure rfl) fun _ => .pure rfl

/-! ### Loops -/

omit hstmt in
lemma agree_loopExits (body : Exits) {truth : Option Bool} (p : Position) :
    K.Agree least Eq (loopExits body truth p) (loopExits body truth (r.position p)) :=
  .ite (fun _ => (agree_reportUnreachable p).bind_eq fun _ => .pure rfl) fun _ => .pure rfl

lemma agree_whileStatement : K.Alike least Eq (whileStatement stmt) := by
  refine .require fun _ _ => agree_condition.bind_maps fun facts => ?_
  refine agree_position.bind_maps fun start => ((hstmt least).inLoop).bind_eq fun body => ?_
  exact (agree_loopExits body start).bind_eq fun exits => .pure rfl

lemma agree_doStatement : K.Alike least Eq (doStatement stmt) := by
  refine .require fun _ _ => ((hstmt least).inLoop).bind_eq fun body => ?_
  refine .require fun _ _ => agree_condition.bind_maps fun facts => ?_
  exact .require fun _ _ => .pure rfl

lemma agree_forStatement : K.Alike least Eq (forStatement stmt) := by
  refine .require fun _ _ => .require fun _ _ => ?_
  refine agree_exprs.bind_maps fun first => agree_exprs.bind_maps fun conditions => ?_
  refine agree_exprs.bind_maps fun steps => ?_
  simp only [List.getLast?_map, r.allRaises_map]
  cases conditions.getLast?
  all_goals
    refine agree_position.bind_maps fun start => ((hstmt least).inLoop).bind_eq fun body => ?_
    exact (agree_loopExits body start).bind_eq fun exits => .pure rfl

omit hstmt in
lemma agree_iterationTypes (subject : Ty) : K.Alike least Eq (iterationTypes subject) := by
  unfold iterationTypes
  split
  · exact (agree_typeOf _).bind_eq fun type => .pure rfl
  · exact .mixed fun key => .mixed fun element => .pure rfl

omit hstmt in
lemma agree_setLoopVariable {name : String} {type : Ty} :
    K.Alike least Eq (setLoopVariable name type) :=
  (agree_variableNamed? name).bind_eq fun _ => .ite (fun _ => agree_setVariable) fun _ => .pure rfl

omit hstmt in
lemma agree_loopVariables {keyType elementType : Ty} :
    K.Alike least Eq (loopVariables keyType elementType) := by
  refine .takes fun _ => .require fun first _ => ?_
  refine .takes fun keyed => .ite (fun _ => ?_) fun _ => agree_setLoopVariable
  refine .takes fun _ => .require fun second _ => ?_
  exact agree_setLoopVariable.bind_eq fun _ => agree_setLoopVariable

lemma agree_foreachStatement : K.Alike least Eq (foreachStatement stmt) := by
  refine .require fun _ _ => .require fun _ _ => ?_
  refine agree_expr.bind_maps fun subject => .require fun _ _ => ?_
  refine (agree_iterationTypes subject.type).bind_eq fun types => ?_
  refine agree_loopVariables.bind_eq fun _ => .require fun _ _ => ?_
  exact ((hstmt least).inLoop).bind_eq fun body => .pure rfl

/-! ### Switches -/

omit hstmt in
lemma agree_label (found : Groups) : K.Alike least Eq (label found) := by
  refine .onKind fun here => ?_
  split
  · exact .advance fun _ _ => agree_expr.bind_maps fun facts => .pure rfl
  · exact .advance fun _ _ => .pure rfl
  · exact agree_reject

lemma agree_groupsFrom (fuel : Nat) (found : Groups) :
    K.Alike least Eq (groupsFrom stmt fuel found) := by
  induction fuel generalizing found with
  | zero => exact agree_spent
  | succ fuel ih =>
      refine .onKind fun here => .ite (fun _ => .pure rfl) fun _ => ?_
      refine (agree_label found).bind_eq fun found => .takes fun ended => ?_
      refine .ite (fun _ => ?_) fun _ => .require fun _ _ => ?_
      all_goals exact (agree_statements hstmt _).bind_eq fun exits => ih _

lemma agree_switchStatement : K.Alike least Eq (switchStatement stmt) := by
  refine .require fun _ _ => agree_condition.bind_maps fun subject => ?_
  refine .require fun _ _ => ?_
  have hgroups : K.Alike least Eq (do groupsFrom stmt (← bound) {}) :=
    .bound fun n => agree_groupsFrom hstmt n {}
  refine hgroups.inLoop.bind_eq fun found => ?_
  exact .require fun _ _ => .pure rfl

/-! ### Exceptions -/

omit hstmt in
lemma agree_caughtTypes (fuel : Nat) (found : CaughtTypes) :
    K.Alike least Eq (caughtTypes fuel found) := by
  induction fuel generalizing found with
  | zero => exact agree_spent
  | succ fuel ih =>
      refine .require fun name _ => agree_classNamed?.bind_eq fun owner => ?_
      cases owner with
      | some id =>
          exact .takes fun more => .ite (fun _ => ih _) fun _ => .pure rfl
      | none =>
          refine .positionOf fun p _ => .report rfl fun _ => ?_
          exact .takes fun more => .ite (fun _ => ih _) fun _ => .pure rfl

omit hstmt in
lemma agree_caughtType (types : CaughtTypes) : K.Alike least Eq (caughtType types) := by
  unfold caughtType
  split
  · exact .ite (fun _ => agree_instanceType _) fun _ => agree_mixed
  · exact agree_mixed

lemma agree_catchClause : K.Alike least Eq (catchClause stmt) := by
  refine .require fun _ _ => .require fun _ _ => ?_
  refine .bound fun n => (agree_caughtTypes n {}).bind_eq fun types => ?_
  refine .require fun name _ => .require fun _ _ => ?_
  refine (agree_caughtType types).bind_eq fun type => agree_setVariable.bind_eq fun _ => ?_
  exact (agree_block hstmt).bind_eq fun body => .pure rfl

lemma agree_catchClauses (fuel : Nat) : K.Alike least Eq (catchClauses stmt fuel) := by
  induction fuel with
  | zero => exact agree_spent
  | succ fuel ih =>
      refine .onKind fun here => .ite (fun _ => ?_) fun _ => .pure rfl
      exact (agree_catchClause hstmt).bind_eq fun clause => ih.bind_eq fun rest => .pure rfl

lemma agree_finalBlock? : K.Alike least Eq (finalBlock? stmt) := by
  refine .takes fun found => .ite (fun _ => ?_) fun _ => .pure rfl
  exact (agree_block hstmt).bind_eq fun exits => .pure rfl

lemma agree_tryStatement : K.Alike least Eq (tryStatement stmt) := by
  refine .require fun keyword _ => (agree_block hstmt).bind_eq fun body => ?_
  refine .bound fun n => (agree_catchClauses hstmt n).bind_eq fun clauses => ?_
  refine (agree_finalBlock? hstmt).bind_eq fun last => ?_
  extract_lets rest
  have hrest : ∀ u, K.Alike least Eq (rest u) :=
    fun _ => agree_classes.bind_maps fun t => .pure (guarded_relocate t body clauses last).symm
  refine .ite (fun _ => ?_) fun _ => hrest ()
  exact .positionOf fun p _ => (agree_fail rfl p).bind_eq hrest

end Compound

end Check

end ScriptCheck
