import ScriptCheck.Proofs.Analysis.Expr.Progress
import ScriptCheck.Proofs.Analysis.Stmt.Composition

/-!
Annotations and statements read on.

The readers of compound statements take the reader of statements as an argument. If that one moves
the cursor whenever it is called elsewhere than at the end, with at most `n` tokens left, then each
of them reads a keyword first and so does the same with at most `n + 1` (`Opens`). Statements inside
one another therefore come to an end, and so does a sequence of them.
-/

namespace ScriptCheck.Check

variable {w : Extent} {n r : Nat} {stmt : StmtReader} {s : State}

/-! ### Annotations -/

/-- Every round of the loop over the tags consumes a bracket. -/
lemma reads_descriptorTags (text : List Char) : Reads w n (descriptorTags (n + 1) text) := by
  induction n generalizing text with
  | zero => exact fun s => .zero
  | succ n ih =>
      intro s
      unfold descriptorTags
      refine .kind ?_
      split
      case isTrue hbracket =>
        have hk : s.cursor.kind ≠ .eof := ne_eof_of_beq hbracket (by decide)
        refine (opens_advance.bind fun _ => .onKind fun next => ?_).runs hk
        extract_lets after
        have hafter : ∀ key, Reads w n (after key) := fun _ =>
          .require fun _ => ih _
        split
        · exact .advance fun _ => Reads.pure.bind hafter
        · exact Reads.pure.bind hafter
      case isFalse => exact Reads.pure s

lemma ne_eof_of_startsType {k : Kind} (h : startsType k = true) : k ≠ .eof := by
  rintro rfl
  cases h

/-- A descriptor in the older form has another descriptor after a token and its tags. -/
lemma consumes_descriptorWithin : Consumes w n (descriptorWithin (n + 1)) := by
  induction n with
  | zero => exact fun s => .zero
  | succ n ih =>
      intro s
      unfold descriptorWithin
      refine .current ?_
      extract_lets after
      split
      case isTrue hstart =>
        have hk : s.cursor.kind ≠ .eof := ne_eof_of_startsType hstart
        refine (opens_advance.bind fun _ => .bound fun r hr => ?_).runs hk
        refine (reads_descriptorTags _).bind fun text => ?_
        refine .onKind fun next => ?_
        split
        · exact (ih.le hr).reads.bind fun _ => .pure
        · exact .pure
      case isFalse =>
        exact (peeks_positionOf.reads.bind_consumes fun _ => consumes_fail) s

lemma consumes_descriptor : Consumes w n descriptor :=
  .bound fun _ _ =>
    consumes_descriptorWithin.bind fun _ => .pure

lemma consumes_nameList : Consumes w n (nameList (n + 1)) := by
  induction n with
  | zero => exact fun s => .zero
  | succ n ih =>
      refine (consumes_require .name nofun).bind_succ fun token => ?_
      refine .positionOf fun position => ?_
      refine .takes fun more => ?_
      split
      · exact ih.reads.bind fun _ => .pure
      · exact .pure

lemma consumes_names : Consumes w n names :=
  .bound fun _ _ => consumes_nameList

lemma reads_noteContent : Reads w n noteContent := by
  refine peeks_current.reads.bind fun token => ?_
  extract_lets isWord
  split
  · exact .advance fun _ => .pure
  · split
    · exact .advance fun _ => .pure
    · split
      · exact .advance fun _ => consumes_names.reads.bind fun _ => .pure
      · refine consumes_descriptor.reads.bind fun text => ?_
        exact .positionOf fun _ => .pure

lemma consumes_note : Consumes w n note := by
  refine (consumes_require .openNote nofun).bind fun _ => reads_noteContent.bind fun content => ?_
  refine peeks_current.reads.bind fun token => ?_
  extract_lets closed
  have hclosed : ∀ u, Reads w n (closed u) := fun _ => .advance fun _ => .pure
  split
  · exact hclosed ()
  · exact .positionOf fun _ => consumes_fail.reads.bind hclosed

lemma reads_note? : Reads w n note? := by
  refine .onKind fun next => ?_
  split
  · exact consumes_note.reads.bind fun _ => .pure
  · exact .pure

/-! ### Sequences -/

lemma peeks_declarationAhead : Peeks declarationAhead := fun _ => ⟨_, rfl⟩

/-- Every round of the loop over the statements is at a token other than the end token, where the
reader of statements moves on. -/
lemma reads_statementsFrom (hstmt : Proceeds .statement n stmt) (ends : List Kind)
    (exits : Exits) (reported : Bool) (hr : r ≤ n) :
    Reads .statement r (statementsFrom stmt ends (r + 1) exits reported) := by
  induction r generalizing exits reported with
  | zero => exact fun s => .zero
  | succ r ih =>
      have hnext : ∀ exits reported,
          Reads .statement r (statementsFrom stmt ends (r + 1) exits reported) :=
        fun exits reported => ih exits reported (by omega)
      intro s
      unfold statementsFrom
      refine .kind ?_
      split
      case isTrue => exact Reads.pure s
      case isFalse hhere =>
        have hk : s.cursor.kind ≠ .eof := by
          rintro he
          simp [he] at hhere
        obtain ⟨start, hstart⟩ := peeks_position s
        obtain ⟨isDeclaration, hdeclaration⟩ := peeks_declarationAhead s
        refine .peek hstart (.peek hdeclaration ?_)
        refine ((hstmt.le hr).runs hk).bind_succ fun next => ?_
        split
        · exact hnext _ _
        · split
          · exact hnext _ _
          · exact steady_reportUnreachable.reads.bind fun _ => hnext _ _

lemma reads_statements (hstmt : Proceeds .statement n stmt) (ends : List Kind) :
    Reads .statement n (statements stmt ends) :=
  .bound fun _ hr => reads_statementsFrom hstmt ends _ _ hr

lemma opens_block (hstmt : Proceeds .statement n stmt) : Opens .statement n (block stmt) := by
  refine opens_require.bind fun _ => (reads_statements hstmt _).bind fun exits => ?_
  exact .require fun _ => .pure

/-! ### Expressions in statements -/

lemma consumes_condition : Consumes w n condition := by
  refine (consumes_require .openParen nofun).bind fun _ => ?_
  refine (consumes_expr _).reads.bind fun facts => ?_
  exact .require fun _ => .pure

lemma reads_exprsFrom (close : Kind) : Reads w n (exprsFrom close (n + 1)) := by
  induction n with
  | zero => exact fun s => .zero
  | succ n ih =>
      refine .onKind fun next => ?_
      split
      · exact .pure
      · refine ((consumes_expr _).bind_succ fun facts => ?_).reads
        refine .takes fun more => ?_
        split
        · exact ih.bind fun _ => .pure
        · exact .pure

lemma reads_exprs (close : Kind) : Reads w n (exprs close) := by
  refine .bound fun r _ => (reads_exprsFrom close).bind fun found => ?_
  exact .require fun _ => .pure

lemma consumes_exprStatement : Consumes w n exprStatement :=
  (consumes_expr _).bind fun _ => .require fun _ => .pure

lemma opens_echo : Opens w n echo :=
  opens_require.bind fun _ => (reads_exprs .semicolon).bind fun _ => .pure

lemma opens_emptyStatement : Opens w n emptyStatement :=
  opens_require.bind fun _ => .pure

/-! ### Jumps -/

lemma reads_jumpLevel {keyword : String} : Reads w n (jumpLevel keyword) := by
  refine .onKind fun next => ?_
  split
  · refine .advance fun token => ?_
    split
    · exact .pure
    · exact .positionOf fun _ => consumes_fail.reads
  · exact .pure

lemma opens_jump {exits : Nat → Exits} : Opens w n (jump exits) := by
  refine opens_advance.bind fun keyword => reads_jumpLevel.bind fun level => ?_
  refine .require fun _ => peeks_get.reads.bind fun s => ?_
  extract_lets depth
  split
  · exact .positionOf fun _ => .report fun _ => .pure
  · exact .pure

lemma reads_returnedValue? : Reads w n returnedValue? := by
  refine .onKind fun next => ?_
  split
  · exact .pure
  · exact (consumes_expr _).reads.bind fun _ => .pure

lemma opens_returnStatement : Opens w n returnStatement := by
  refine opens_require.bind fun keyword => reads_returnedValue?.bind fun value => ?_
  refine .require fun _ => .positionOf fun start => ?_
  exact steady_checkReturn.reads.bind fun _ => .pure

lemma opens_throwStatement : Opens w n throwStatement := by
  refine opens_require.bind fun _ => (consumes_expr _).reads.bind fun exception => ?_
  refine .require fun _ => ?_
  exact steady_raisedClass?.reads.bind fun _ => .pure

lemma opens_exitStatement : Opens w n exitStatement := by
  refine opens_require.bind fun _ => .takes fun hasArguments => ?_
  extract_lets after
  have hafter : ∀ args, Reads w n (after args) :=
    fun _ => .require fun _ => .pure
  split
  · exact (reads_exprs .closeParen).bind hafter
  · exact Reads.pure.bind hafter

/-! ### Declarations of constants and variables -/

lemma reads_constantsFrom : Reads .statement n (constantsFrom (n + 1)) := by
  induction n with
  | zero => exact fun s => .zero
  | succ n ih =>
      refine ((consumes_require .name nofun).bind_succ fun name => ?_).reads
      refine .require fun _ => (consumes_expr _).reads.bind fun value => ?_
      refine reads_modifyEnv.bind fun _ => .takes fun more => ?_
      split
      · exact ih.bind fun _ => .pure
      · exact .pure

lemma opens_constStatement : Opens .statement n constStatement := by
  refine opens_require.bind fun _ => .bound fun r _ => ?_
  refine reads_constantsFrom.bind fun raises => ?_
  exact .require fun _ => .pure

lemma reads_variablesFrom (type : Ty) : Reads .statement n (variablesFrom type (n + 1)) := by
  induction n with
  | zero => exact fun s => .zero
  | succ n ih =>
      refine ((consumes_require .var nofun).bind_succ fun name => ?_).reads
      refine (Steady.setVariable _ _ _ Extent.statement_ne).reads.bind fun _ => ?_
      refine .takes fun hasValue => ?_
      extract_lets after
      have hafter : ∀ raises, Reads .statement n (after raises) := by
        refine fun _ => .takes fun more => ?_
        split
        · exact ih.bind fun _ => .pure
        · exact .pure
      split
      · refine (consumes_expr _).reads.bind fun value => ?_
        refine steady_checkType.reads.bind fun _ => ?_
        exact Reads.pure.bind hafter
      · exact Reads.pure.bind hafter

lemma consumes_variableStatement : Consumes .statement n variableStatement := by
  refine consumes_note.bind fun note => ?_
  split
  · refine steady_noteType.reads.bind fun type => .bound fun r _ => ?_
    refine (reads_variablesFrom type).bind fun raises => ?_
    exact .require fun _ => .pure
  · exact peeks_position.reads.bind fun _ => consumes_fail.reads

/-! ### Conditionals and loops -/

section Compound

variable (hstmt : Proceeds .statement n stmt)
include hstmt

/-- Every round of the loop over the branches consumes the parenthesis of a condition. -/
lemma reads_branchesFrom (found : Branches) (hr : r ≤ n) :
    Reads .statement r (branchesFrom stmt (r + 1) found) := by
  induction r generalizing found with
  | zero => exact fun s => .zero
  | succ r ih =>
      refine (consumes_condition.bind_succ fun facts => ?_).reads
      refine (hstmt.le (by omega)).reads.bind fun body => .takes fun more => ?_
      split
      · exact ih _ (by omega)
      · exact .pure

lemma opens_ifStatement : Opens .statement n (ifStatement stmt) := by
  refine opens_require.bind fun _ => .bound fun r hr => ?_
  refine (reads_branchesFrom hstmt _ hr).bind fun found => ?_
  refine .takes fun hasElse => ?_
  split
  · exact (hstmt.le hr).reads.bind fun _ => .pure
  · exact .pure

lemma opens_whileStatement : Opens .statement n (whileStatement stmt) := by
  refine opens_require.bind fun _ => consumes_condition.reads.bind fun facts => ?_
  refine peeks_position.reads.bind fun start => hstmt.reads.inLoop.bind fun body => ?_
  exact steady_loopExits.reads.bind fun _ => .pure

lemma opens_doStatement : Opens .statement n (doStatement stmt) := by
  refine opens_require.bind fun _ => hstmt.reads.inLoop.bind fun body => ?_
  refine .require fun _ => consumes_condition.reads.bind fun facts => ?_
  exact .require fun _ => .pure

lemma opens_forStatement : Opens .statement n (forStatement stmt) := by
  refine opens_require.bind fun _ => .require fun _ => ?_
  refine (reads_exprs .semicolon).bind fun first => ?_
  refine (reads_exprs .semicolon).bind fun conditions => ?_
  refine (reads_exprs .closeParen).bind fun steps => ?_
  refine peeks_position.reads.bind fun start => hstmt.reads.inLoop.bind fun body => ?_
  exact steady_loopExits.reads.bind fun _ => .pure

omit hstmt in
lemma reads_loopVariables {keyType elementType : Ty} :
    Reads .statement n (loopVariables keyType elementType) := by
  refine .takes fun _ => .require fun first => ?_
  refine .takes fun hasKey => ?_
  split
  · refine .takes fun _ => .require fun second => ?_
    exact (steady_setLoopVariable Extent.statement_ne).reads.bind fun _ =>
      (steady_setLoopVariable Extent.statement_ne).reads
  · exact (steady_setLoopVariable Extent.statement_ne).reads

lemma opens_foreachStatement : Opens .statement n (foreachStatement stmt) := by
  refine opens_require.bind fun _ => .require fun _ => ?_
  refine (consumes_expr _).reads.bind fun subject => .require fun _ => ?_
  refine steady_iterationTypes.reads.bind fun types => reads_loopVariables.bind fun _ => ?_
  refine .require fun _ => hstmt.reads.inLoop.bind fun body => ?_
  exact .pure

/-! ### Switches -/

omit hstmt in
/-- A label starts with one of two words. -/
lemma consumes_label {found : Groups} : Consumes w n (label found) := by
  refine .byKind rfl fun s hk => ?_
  split
  · exact (proceeds_advance.bind fun _ => (consumes_expr _).reads.bind fun _ => .pure).runs hk
  · exact (proceeds_advance.bind fun _ => .pure).runs hk
  · exact consumes_reject s

/-- Every round of the loop over the groups consumes a label. -/
lemma reads_groupsFrom (found : Groups) (hr : r ≤ n) :
    Reads .statement r (groupsFrom stmt (r + 1) found) := by
  induction r generalizing found with
  | zero => exact fun s => .zero
  | succ r ih =>
      refine .onKind fun next => ?_
      split
      · exact .pure
      · refine (consumes_label.bind_succ fun found => ?_).reads
        refine .takes fun _ => ?_
        extract_lets after
        have hafter : ∀ u, Reads .statement r (after u) := fun _ =>
          (reads_statements (hstmt.le (by omega)) _).bind fun _ => ih _ (by omega)
        split
        · exact hafter ()
        · exact .require fun _ => hafter ()

lemma opens_switchStatement : Opens .statement n (switchStatement stmt) := by
  refine opens_require.bind fun _ => consumes_condition.reads.bind fun subject => ?_
  refine .require fun _ => ?_
  have hgroups : Reads .statement n (bound >>= fun fuel => groupsFrom stmt fuel {}) :=
    .bound fun r hr => reads_groupsFrom hstmt _ hr
  exact hgroups.inLoop.bind fun found => .require fun _ => .pure

/-! ### Exceptions -/

omit hstmt in
lemma reads_caughtTypes (found : CaughtTypes) : Reads w n (caughtTypes (n + 1) found) := by
  induction n generalizing found with
  | zero => exact fun s => .zero
  | succ n ih =>
      refine ((consumes_require .name nofun).bind_succ fun name => ?_).reads
      refine (peeks_classNamed? _).reads.bind fun owner => ?_
      extract_lets after
      have hafter : ∀ found, Reads w n (after found) := by
        refine fun _ => .takes fun more => ?_
        split
        · exact ih _
        · exact .pure
      split
      · exact Reads.pure.bind hafter
      · refine .positionOf fun _ => .report fun _ => ?_
        exact Reads.pure.bind hafter

lemma opens_catchClause : Opens .statement n (catchClause stmt) := by
  refine opens_require.bind fun _ => .require fun _ => ?_
  refine .bound fun r hr => ?_
  refine (reads_caughtTypes _).bind fun types => ?_
  refine .require fun name => .require fun _ => ?_
  refine steady_caughtType.reads.bind fun type => ?_
  refine (Steady.setVariable _ _ _ Extent.statement_ne).reads.bind fun _ => ?_
  exact (opens_block (hstmt.le hr)).reads.bind fun _ => .pure

/-- Every round of the loop over the clauses consumes a keyword. -/
lemma reads_catchClauses (hr : r ≤ n) : Reads .statement r (catchClauses stmt (r + 1)) := by
  induction r with
  | zero => exact fun s => .zero
  | succ r ih =>
      intro s
      unfold catchClauses
      refine .kind ?_
      split
      case isTrue hcatch =>
        have hk : s.cursor.kind ≠ .eof := ne_eof_of_beq hcatch (by decide)
        refine ((opens_catchClause (hstmt.le (by omega))).bind fun clause => ?_).runs hk
        exact (ih (by omega)).bind fun _ => .pure
      case isFalse => exact Reads.pure s

lemma reads_finalBlock? : Reads .statement n (finalBlock? stmt) := by
  refine .takes fun hasFinal => ?_
  split
  · exact (opens_block hstmt).reads.bind fun _ => .pure
  · exact .pure

lemma opens_tryStatement : Opens .statement n (tryStatement stmt) := by
  refine opens_require.bind fun keyword => (opens_block hstmt).reads.bind fun body => ?_
  refine .bound fun r hr => ?_
  refine (reads_catchClauses hstmt hr).bind fun clauses => ?_
  refine (reads_finalBlock? (hstmt.le hr)).bind fun last => ?_
  extract_lets after
  have hafter : ∀ u, Reads .statement r (after u) :=
    fun _ => peeks_classes.reads.bind fun _ => .pure
  split
  · exact .positionOf fun _ => consumes_fail.reads.bind hafter
  · exact hafter ()

end Compound

end ScriptCheck.Check
