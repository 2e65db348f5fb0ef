import ScriptCheck.Proofs.Analysis.Expr.Composition

/-!
Annotations and statements are put together from steps.

The readers of compound statements are, if the reader of statements that they take is.
-/

namespace ScriptCheck.Check

variable {w : Extent} {stmt : StmtReader}

/-! ### Annotations -/

@[grind ←]
lemma composed_descriptorTags (fuel : Nat) (text : List Char) :
    Composed w (descriptorTags fuel text) := by
  induction fuel generalizing text with
  | zero => exact composed_spent
  | succ fuel ih =>
      rw [descriptorTags]
      grind

@[grind ←]
lemma composed_descriptorWithin (fuel : Nat) : Composed w (descriptorWithin fuel) := by
  induction fuel with
  | zero => exact composed_spent
  | succ fuel ih =>
      rw [descriptorWithin]
      refine composed_current.bind fun base => ?_
      split
      · grind
      · refine .positionOf fun place => ?_
        refine (composed_fail (.noType _) _).bind fun _ => ?_
        grind

@[grind ←]
lemma composed_descriptor : Composed w descriptor := by
  rw [descriptor]
  grind

@[grind ←]
lemma composed_nameList (fuel : Nat) : Composed w (nameList fuel) := by
  induction fuel with
  | zero => exact composed_spent
  | succ fuel ih =>
      rw [nameList]
      grind

@[grind ←]
lemma composed_names : Composed w names := by
  rw [names]
  grind

@[grind ←]
lemma composed_noteContent : Composed w noteContent := by
  rw [noteContent]
  grind

@[grind ←]
lemma composed_note : Composed w note := by
  rw [note]
  grind

@[grind ←]
lemma composed_note? : Composed w note? := by
  rw [note?]
  grind

/-! ### Sequences -/

@[grind ←]
lemma composed_declarationAhead : Composed w declarationAhead := by
  rw [declarationAhead]
  grind

@[grind ←]
lemma steady_reportUnreachable {position : Position} :
    Steady .statement (reportUnreachable position) := by
  have heq : reportUnreachable position = reportBy fun o _ =>
      if o.reportsUnreachable then [⟨.unreachableCode, position⟩] else [] := by
    funext s
    rw [reportUnreachable, bind_of_ok (get_run s), reportBy]
    by_cases hon : s.options.reportsUnreachable = true
    · rw [if_pos hon, if_pos hon]
      rfl
    · rw [if_neg hon, if_neg hon]
      rfl
  rw [heq]
  exact .reportBy (.unreachable (.inl rfl) position) (by grind)

@[grind ←]
lemma composed_statementsFrom (hstmt : Composed .statement stmt) (ends : List Kind) (fuel : Nat)
    (exits : Exits) (reported : Bool) :
    Composed .statement (statementsFrom stmt ends fuel exits reported) := by
  induction fuel generalizing exits reported with
  | zero => exact composed_spent
  | succ fuel ih =>
      rw [statementsFrom]
      grind

@[grind ←]
lemma composed_statements (hstmt : Composed .statement stmt) (ends : List Kind) :
    Composed .statement (statements stmt ends) := by
  rw [statements]
  grind

@[grind ←]
lemma composed_block (hstmt : Composed .statement stmt) : Composed .statement (block stmt) := by
  rw [block]
  grind

/-! ### Statements without statements inside -/

@[grind ←]
lemma composed_condition : Composed w condition := by
  rw [condition]
  grind

@[grind ←]
lemma composed_exprsFrom (close : Kind) (fuel : Nat) : Composed w (exprsFrom close fuel) := by
  induction fuel with
  | zero => exact composed_spent
  | succ fuel ih =>
      rw [exprsFrom]
      grind

@[grind ←]
lemma composed_exprs {close : Kind} : Composed w (exprs close) := by
  rw [exprs]
  grind

@[grind ←]
lemma composed_exprStatement : Composed w exprStatement := by
  rw [exprStatement]
  grind

@[grind ←]
lemma composed_echo : Composed w echo := by
  rw [echo]
  grind

@[grind ←]
lemma composed_emptyStatement : Composed w emptyStatement := by
  rw [emptyStatement]
  grind

@[grind ←]
lemma composed_jumpLevel {keyword : String} : Composed w (jumpLevel keyword) := by
  rw [jumpLevel]
  grind

@[grind ←]
lemma composed_jump {exits : Nat → Exits} : Composed w (jump exits) := by
  refine .advance fun keyword => composed_jumpLevel.bind fun level => ?_
  refine .require fun _ => .get (fun s => ?_) fun s => rfl
  grind

@[grind ←]
lemma steady_checkReturn {value : Option Facts} {position : Position} :
    Steady w (checkReturn value position) := by
  refine .get (fun s => ?_) fun s => rfl
  grind

@[grind ←]
lemma composed_returnedValue? : Composed w returnedValue? := by
  rw [returnedValue?]
  grind

@[grind ←]
lemma composed_returnStatement : Composed w returnStatement := by
  rw [returnStatement]
  grind

@[grind ←]
lemma steady_raisedClass? {exception : Facts} : Steady w (raisedClass? exception) := by
  rw [raisedClass?]
  split <;> grind

@[grind ←]
lemma composed_throwStatement : Composed w throwStatement := by
  rw [throwStatement]
  grind

@[grind ←]
lemma composed_exitStatement : Composed w exitStatement := by
  rw [exitStatement]
  grind

lemma steady_addConstant (hw : w ≠ .expression) {name : String} {type : Ty} :
    Steady w (modifyEnv (·.addConstant name type)) := by
  refine steady_modifyEnv hw fun env => ?_
  rw [Env.addConstant]
  split
  · exact .refl _
  · exact .refl _

@[grind ←]
lemma composed_constantsFrom (hw : w ≠ .expression) (fuel : Nat) :
    Composed w (constantsFrom fuel) := by
  induction fuel with
  | zero => exact composed_spent
  | succ fuel ih =>
      rw [constantsFrom]
      grind

@[grind ←]
lemma composed_constStatement (hw : w ≠ .expression) : Composed w constStatement := by
  rw [constStatement]
  grind

@[grind ←]
lemma composed_variablesFrom (hw : w ≠ .expression) (type : Ty) (fuel : Nat) :
    Composed w (variablesFrom type fuel) := by
  induction fuel with
  | zero => exact composed_spent
  | succ fuel ih =>
      refine .require fun name => (Composed.setVariable _ _ _ hw).bind fun _ => ?_
      grind

@[grind ←]
lemma composed_variableStatement (hw : w ≠ .expression) : Composed w variableStatement := by
  refine composed_note.bind fun found => ?_
  split <;> grind

/-! ### Conditionals and loops -/

@[grind ←]
lemma composed_branchesFrom (hstmt : Composed w stmt) (fuel : Nat) (found : Branches) :
    Composed w (branchesFrom stmt fuel found) := by
  induction fuel generalizing found with
  | zero => exact composed_spent
  | succ fuel ih =>
      rw [branchesFrom]
      grind

@[grind ←]
lemma composed_ifStatement (hstmt : Composed w stmt) : Composed w (ifStatement stmt) := by
  rw [ifStatement]
  grind

@[grind ←]
lemma steady_loopExits {body : Exits} {truth : Option Bool} {bodyStart : Position} :
    Steady .statement (loopExits body truth bodyStart) := by
  rw [loopExits]
  grind

@[grind ←]
lemma steady_iterationTypes {subject : Ty} : Steady w (iterationTypes subject) := by
  rw [iterationTypes.eq_def]
  split <;> grind

@[grind ←]
lemma steady_setLoopVariable (hw : w ≠ .expression) {name : String} {type : Ty} :
    Steady w (setLoopVariable name type) := by
  rw [setLoopVariable]
  grind

@[grind ←]
lemma steady_caughtType {types : CaughtTypes} : Steady w (caughtType types) := by
  rw [caughtType]
  grind

section Compound

variable (hstmt : Composed .statement stmt)
include hstmt

@[grind ←]
lemma composed_whileStatement : Composed .statement (whileStatement stmt) := by
  rw [whileStatement]
  grind

@[grind ←]
lemma composed_doStatement : Composed .statement (doStatement stmt) := by
  rw [doStatement]
  grind

@[grind ←]
lemma composed_forStatement : Composed .statement (forStatement stmt) := by
  refine .require fun _ => .require fun _ => ?_
  refine composed_exprs.bind fun first => composed_exprs.bind fun conditions => ?_
  refine composed_exprs.bind fun steps => ?_
  grind

omit hstmt in
@[grind ←]
lemma composed_loopVariables (hw : w ≠ .expression) {keyType elementType : Ty} :
    Composed w (loopVariables keyType elementType) := by
  rw [loopVariables]
  grind

@[grind ←]
lemma composed_foreachStatement : Composed .statement (foreachStatement stmt) := by
  refine .require fun _ => .require fun _ => ?_
  refine composed_expr.bind fun subject => .require fun _ => ?_
  refine steady_iterationTypes.composed.bind fun types => ?_
  grind

/-! ### Switches and exceptions -/

omit hstmt in
@[grind ←]
lemma composed_label {found : Groups} : Composed w (label found) := by
  rw [label]
  grind

@[grind ←]
lemma composed_groupsFrom (fuel : Nat) (found : Groups) :
    Composed .statement (groupsFrom stmt fuel found) := by
  induction fuel generalizing found with
  | zero => exact composed_spent
  | succ fuel ih =>
      rw [groupsFrom]
      grind

@[grind ←]
lemma composed_switchStatement : Composed .statement (switchStatement stmt) := by
  rw [switchStatement]
  grind

omit hstmt in
@[grind ←]
lemma composed_caughtTypes {fuel : Nat} (found : CaughtTypes) :
    Composed w (caughtTypes fuel found) := by
  induction fuel generalizing found with
  | zero => exact composed_spent
  | succ fuel ih =>
      rw [caughtTypes]
      grind

@[grind ←]
lemma composed_catchClause : Composed .statement (catchClause stmt) := by
  refine .require fun _ => .require fun _ => ?_
  refine .bound fun fuel => (composed_caughtTypes _).bind fun types => ?_
  grind

@[grind ←]
lemma composed_catchClauses {fuel : Nat} : Composed .statement (catchClauses stmt fuel) := by
  induction fuel with
  | zero => exact composed_spent
  | succ fuel ih =>
      rw [catchClauses]
      grind

@[grind ←]
lemma composed_finalBlock? : Composed .statement (finalBlock? stmt) := by
  rw [finalBlock?]
  grind

@[grind ←]
lemma composed_tryStatement : Composed .statement (tryStatement stmt) := by
  refine .require fun keyword => (composed_block hstmt).bind fun body => ?_
  refine .bound fun fuel => (composed_catchClauses hstmt).bind fun clauses => ?_
  grind

end Compound

end ScriptCheck.Check
