import ScriptCheck.Proofs.Analysis.Decl.Progress

/-!
The analysis of a file comes to its end.

By induction over the depth the reader of statements moves on whenever it is called elsewhere than
at the end (`proceeds_stmt`), since a statement that breaks off is passed over from where it
started. The reading ahead of declarations moves on in every round as well. Neither breaks off:
faults are reported and recovered from (`Faultless`). So the analysis of every sequence of tokens that
ends in its only end token gives a result, with the cursor on the end token (`analysis_comes_to_end`).
-/

namespace ScriptCheck.Check

variable {α β : Type} {w : Extent} {n r : Nat} {stmt : StmtReader} {m : Check α} {f : α → Check β}
  {s : State}

/-! ### Statements -/

lemma consumes_annotatedStatement (hstmt : Proceeds .statement n stmt) :
    Consumes .statement (n + 1) (annotatedStatement stmt) := by
  refine peeks_cursor.reads.bind_consumes fun c => ?_
  extract_lets next
  split
  · exact consumes_functionStatement hstmt
  · split
    · exact consumes_classStatement hstmt
    · exact consumes_variableStatement

/-- With one token more than the statements inside are known to read, a statement is read. -/
lemma consumes_byKind (hstmt : Proceeds .statement n stmt) :
    Consumes .statement (n + 1) (byKind stmt) := by
  refine .byKind rfl fun s hk => ?_
  split
  · exact (opens_block hstmt).runs hk
  · exact (opens_ifStatement hstmt).runs hk
  · exact (opens_whileStatement hstmt).runs hk
  · exact (opens_doStatement hstmt).runs hk
  · exact (opens_forStatement hstmt).runs hk
  · exact (opens_foreachStatement hstmt).runs hk
  · exact (opens_switchStatement hstmt).runs hk
  iterate 2 exact opens_jump.runs hk
  · exact opens_returnStatement.runs hk
  · exact opens_throwStatement.runs hk
  · exact opens_exitStatement.runs hk
  · exact (opens_tryStatement hstmt).runs hk
  · exact opens_echo.runs hk
  · exact opens_emptyStatement.runs hk
  · exact consumes_functionStatement hstmt s
  iterate 4 exact consumes_classStatement hstmt s
  · exact opens_constStatement.runs hk
  · exact consumes_annotatedStatement hstmt s
  · split
    · exact consumes_exprStatement s
    · exact consumes_reject s

/-- As deep as there are tokens, statements are read or passed over. -/
lemma proceeds_stmtWithin (depth : Nat) : Proceeds .statement depth (stmtWithin depth) := by
  induction depth with
  | zero => exact fun s => .zero
  | succ depth ih => exact (consumes_byKind ih).recover

/-- Elsewhere than at the end the reader of statements moves on. -/
lemma proceeds_stmt : Proceeds .statement n Check.stmt :=
  fun s => .bound fun r _ => ((proceeds_stmtWithin (r + 1)).le (Nat.le_succ r)) s

/-! ### Declarations -/

lemma reads_declareHere : Reads .statement n declareHere := by
  refine peeks_cursor.reads.bind fun c => ?_
  extract_lets first
  split
  · exact consumes_classAhead.reads
  · split
    · exact consumes_functionAhead.reads.bind fun _ => .pure
    · exact .pure

/-- Every round of the loop over the declarations moves the cursor: by a declaration, or else by a
single token. -/
lemma reads_declarationsFrom (depth : Nat) :
    Reads .statement n (declarationsFrom (n + 1) depth) := by
  induction n generalizing depth with
  | zero => exact fun s => .zero
  | succ n ih =>
      intro s
      unfold declarationsFrom
      refine .kind ?_
      split
      case isTrue => exact Reads.pure s
      case isFalse heof =>
        have hk : s.cursor.kind ≠ .eof := by simpa using heof
        refine .cursor ?_
        extract_lets start after
        -- the rest of the round, after a declaration was tried or none was
        have hafter : s.cursor.IsProper → s.cursor.remaining ≤ n + 1 → ∀ declared s',
            Change .statement s s' → (depth ≠ 0 → s' = s) →
            Runs .statement s'.cursor.remaining False (after declared) s' := by
          intro hs hrem declared s' hchange hsame
          refine .cursor ?_
          split
          case isTrue hmoved =>
            have hne : s'.cursor.index ≠ s.cursor.index := by
              simpa [start] using (Bool.and_eq_true_iff.mp hmoved).2
            have hlt : s.cursor.index < s'.cursor.index :=
              lt_of_le_of_ne hchange.cursor.le hne.symm
            have hrest := (ih depth).bind fun rest => (.pure : Reads _ _ (pure (declared.toList ++ rest)))
            exact (hrest s').mono (hchange.remaining_le hs hrem (Or.inr ⟨hlt, le_rfl⟩)) id
          case isFalse hstay =>
            -- nothing was read here, so a token is passed over
            have hcursor : s'.cursor = s.cursor := by
              by_cases hdepth : depth = 0
              · exact hchange.cursor.eq_of_index (by simpa [hdepth, start] using hstay)
              · rw [hsame hdepth]
            have hk' : s'.cursor.kind ≠ .eof := hcursor ▸ hk
            have hrest := opens_advance.bind fun token => ih (depthAfter depth token.kind)
            exact (hrest.runs hk').mono (hchange.remaining_le hs hrem (Or.inl le_rfl)) id
        split
        case isTrue hdepth =>
          intro hs hrem
          have hdeclare : Runs .statement (n + 1) False (recover none declareHere) s :=
            reads_declareHere.recover s
          exact hdeclare.bind_of_change (fun declared s' _ hchange _ =>
            hafter hs hrem declared s' hchange (absurd hdepth)) Or.inl hs hrem
        case isFalse =>
          intro hs hrem
          exact (hafter hs hrem none s (.refl _ s) fun _ => rfl) hs le_rfl

/-! ### Computations without faults -/

/-- The computation does not break off with a fault. -/
def Faultless (m : Check α) : Prop := ∀ s fault s', m s ≠ .error (.fault fault) s'

lemma Faultless.bind (hm : Faultless m) (hf : ∀ a, Faultless (f a)) : Faultless (m >>= f) := by
  intro s fault s'' h
  cases hrun : m s with
  | ok a s' => exact hf a s' fault s'' ((bind_of_ok hrun).symm.trans h)
  | error e s' =>
      cases (bind_of_error hrun).symm.trans h
      exact hm s fault s'' hrun

lemma Peeks.faultless (h : Peeks m) : Faultless m := by
  intro s fault s' hrun
  obtain ⟨a, ha⟩ := h s
  cases ha.symm.trans hrun

lemma Faultless.pure {a : α} : Faultless (Pure.pure a : Check α) := Peeks.pure.faultless

lemma faultless_spent : Faultless (throw .spent : Check α) := by
  intro s fault s' hrun
  cases hrun

lemma Steady.faultless (h : Steady w m) : Faultless m := by
  induction h with
  | bind _ _ ihm ihf => exact ihm.bind ihf
  | declareNew name type isAnnotated =>
      intro s fault s' hrun
      rw [Check.declareNew] at hrun
      split at hrun
      · cases hrun
      · cases hrun
  | _ =>
      intro s fault s' hrun
      cases hrun

lemma faultless_advance : Faultless advance := by
  intro s fault s' hrun
  cases hrun

/-- A fault that is recovered from is none. -/
lemma faultless_recover {fallback : α} {m : Check α} : Faultless (recover fallback m) := by
  intro s fault s' hrun
  rw [Check.recover] at hrun
  cases hbody : m s with
  | ok a t =>
      rw [hbody] at hrun
      cases hrun
  | error e t =>
      rw [hbody] at hrun
      cases e with
      | fault _ => cases hrun
      | spent => cases hrun

lemma faultless_stmt : Faultless Check.stmt := by
  refine Faultless.bind (Peeks.faultless fun s => ⟨_, rfl⟩) fun depth => ?_
  cases depth with
  | zero => exact faultless_spent
  | succ depth => exact faultless_recover

lemma faultless_statements (hstmt : Faultless stmt) (ends : List Kind) :
    Faultless (statements stmt ends) := by
  have hfrom : ∀ fuel exits reported,
      Faultless (statementsFrom stmt ends fuel exits reported) := by
    intro fuel
    induction fuel with
    | zero => exact fun _ _ => faultless_spent
    | succ fuel ih =>
        intro exits reported
        refine peeks_kind.faultless.bind fun here => ?_
        split
        · exact .pure
        · refine peeks_position.faultless.bind fun start => ?_
          refine peeks_declarationAhead.faultless.bind fun isDeclaration => ?_
          refine hstmt.bind fun next => ?_
          split
          · exact ih _ _
          · split
            · exact ih _ _
            · exact steady_reportUnreachable.faultless.bind fun _ => ih _ _
  exact Faultless.bind (Peeks.faultless fun s => ⟨_, rfl⟩) fun fuel => hfrom fuel _ _

lemma faultless_declarationsFrom (fuel depth : Nat) : Faultless (declarationsFrom fuel depth) := by
  induction fuel generalizing depth with
  | zero => exact faultless_spent
  | succ fuel ih =>
      refine peeks_kind.faultless.bind fun here => ?_
      split
      · exact .pure
      · refine peeks_cursor.faultless.bind fun c => ?_
        extract_lets start after
        have hafter : ∀ declared, Faultless (after declared) := by
          refine fun _ => peeks_cursor.faultless.bind fun c => ?_
          split
          · exact (ih _).bind fun _ => .pure
          · exact faultless_advance.bind fun _ => ih _
        split
        · exact faultless_recover.bind hafter
        · exact Faultless.pure.bind hafter

/-- A computation that neither runs out of depth nor breaks off gives a result. -/
lemma Reads.exists_ok (hm : Reads w n m) (hf : Faultless m) (hs : s.cursor.IsProper)
    (hrem : s.cursor.remaining ≤ n) :
    ∃ a s', m s = .ok a s' ∧ Change w s s' ∧ s'.cursor.IsProper := by
  have hrun := hm s hs hrem
  cases h : m s with
  | ok a s' =>
      rw [h] at hrun
      exact ⟨a, s', rfl, hrun.1, hrun.2.1⟩
  | error e s' =>
      rw [h] at hrun
      cases e with
      | fault fault => exact (hf s fault s' h).elim
      | spent => exact hrun.elim

/-! ### The whole file -/

/-- Statements are read up to a token that ends them. -/
lemma kind_of_statementsFrom {ends : List Kind} (fuel : Nat) {exits exits' : Exits}
    {reported : Bool} {s' : State}
    (h : statementsFrom stmt ends fuel exits reported s = .ok exits' s') :
    s'.cursor.kind = .eof ∨ s'.cursor.kind ∈ ends := by
  induction fuel generalizing s exits reported with
  | zero => cases h
  | succ fuel ih =>
      unfold statementsFrom at h
      rw [bind_of_ok (kind_run s)] at h
      split at h
      case isTrue hend =>
        cases h
        simpa using hend
      case isFalse =>
        obtain ⟨start, hstart⟩ := peeks_position s
        obtain ⟨isDeclaration, hdeclaration⟩ := peeks_declarationAhead s
        rw [bind_of_ok hstart, bind_of_ok hdeclaration] at h
        obtain ⟨next, t, -, h⟩ := exists_of_bind h
        split at h
        · exact ih h
        · split at h
          · exact ih h
          · obtain ⟨_, t', -, h⟩ := exists_of_bind h
            exact ih h

/-- The state after the names of classes have been entered. -/
def enteredClasses (s : State) : State :=
  let defs := namedClasses s.cursor.file .eof s.cursor.tokens.toList
  { s with env := defs.foldl (fun env decl => (env.addClass decl).2) s.env }

lemma enterClasses_run (s : State) : enterClasses s = .ok () (enteredClasses s) := rfl

/-- The declarations of a file are read ahead to the end. -/
lemma exists_declarations (hs : s.cursor.IsProper) : ∃ s', declarations s = .ok () s' ∧
    s'.cursor.tokens = s.cursor.tokens ∧ s'.cursor.IsProper := by
  have hreads : Reads .statement (s.cursor.moveTo 0).remaining
      (bound >>= fun fuel => declarationsFrom fuel 0 >>= checkAllInheritance) :=
    .bound fun _ _ => (reads_declarationsFrom 0).bind
      fun ids => (steady_checkAllInheritance Extent.statement_ne ids).reads
  have hfaultless : Faultless
      (bound >>= fun fuel => declarationsFrom fuel 0 >>= checkAllInheritance) :=
    Faultless.bind (Peeks.faultless fun s => ⟨_, rfl⟩) fun fuel =>
      (faultless_declarationsFrom fuel 0).bind fun ids =>
        (steady_checkAllInheritance Extent.statement_ne ids).faultless
  obtain ⟨u, s', hrun, hchange, hs'⟩ :=
    hreads.exists_ok (s := { s with cursor := s.cursor.moveTo 0 }) hfaultless hs.moveTo_zero le_rfl
  exact ⟨s', hrun, hchange.cursor.tokens, hs'⟩

/-- The statements of a file are read to the end. -/
lemma exists_statements (hs : s.cursor.IsProper) :
    ∃ exits s', statements Check.stmt [] s = .ok exits s' ∧
      s'.cursor.tokens = s.cursor.tokens ∧ s'.cursor.index + 1 = s.cursor.tokens.size := by
  obtain ⟨exits, s', hrun, hchange, hs'⟩ := (reads_statements proceeds_stmt []).exists_ok
    (faultless_statements faultless_stmt []) hs le_rfl
  have heof : s'.cursor.kind = .eof := by
    rcases kind_of_statementsFrom _ hrun with heof | hmem
    · exact heof
    · cases hmem
  refine ⟨exits, s', hrun, hchange.cursor.tokens, ?_⟩
  rw [hs'.kind_eq_eof_iff.mp heof, hchange.cursor.tokens]

/-- The passes of an analysis. Classes are entered by their names and declarations are read ahead; then
the statements are read, from the first token up to the end token. -/
structure Passes (s declared : State) (exits : Exits) (final : State) : Prop where
  ahead : declarations (enteredClasses s) = .ok () declared
  tokens : declared.cursor.tokens = s.cursor.tokens
  proper : declared.cursor.IsProper
  read : statements Check.stmt [] { declared with cursor := declared.cursor.moveTo 0 } =
    .ok exits final
  analysis : program s = .ok exits final
  ends : final.cursor.tokens = s.cursor.tokens ∧ final.cursor.index + 1 = s.cursor.tokens.size

lemma exists_passes (hs : s.cursor.IsProper) :
    ∃ declared exits final, Passes s declared exits final := by
  -- entering the names of the classes leaves the cursor where it is
  obtain ⟨declared, hahead, htokens, hproper⟩ := exists_declarations (s := enteredClasses s) hs
  obtain ⟨exits, final, hread, hfinal, hend⟩ := exists_statements
    (s := { declared with cursor := declared.cursor.moveTo 0 }) hproper.moveTo_zero
  refine ⟨declared, exits, final, hahead, htokens, hproper, hread, ?_, hfinal.trans htokens, ?_⟩
  · rw [program, bind_of_ok (enterClasses_run s), bind_of_ok hahead]
    exact hread
  · rw [hend]
    exact congrArg Array.size htokens

/-- The analysis of tokens that end in their only end token gives a result. -/
lemma exists_program (hs : s.cursor.IsProper) : ∃ exits s', program s = .ok exits s' := by
  obtain ⟨_, exits, final, hpasses⟩ := exists_passes hs
  exact ⟨exits, final, hpasses.analysis⟩

/-! ### The readers that a token chooses from -/

/-- The readers of statements, one of which the first token chooses. -/
def statementReaders (stmt : StmtReader) : List (Check Exits) :=
  [block stmt, ifStatement stmt, whileStatement stmt, doStatement stmt, forStatement stmt,
    foreachStatement stmt, switchStatement stmt, jump .breaking, jump .continuing, returnStatement,
    throwStatement, exitStatement, tryStatement stmt, echo, emptyStatement, functionStatement stmt,
    classStatement stmt, constStatement, annotatedStatement stmt, exprStatement, reject]

/-- The readers of operands. -/
def operandReaders (expr : ExprReader) : List (Check Facts) :=
  [literal, variableUse, nameUse expr, signed expr, grouped expr, arrayLiteral expr,
    instanceCreation expr, reject]

/-- The readers of operators and what belongs to them. -/
def operatorReaders (expr : ExprReader) (power : Power) (left : Facts) : List (Check Facts) :=
  [assignment expr left, conditional expr left, logical expr power left,
    comparison expr power left, arithmetic expr power left, instanceTest expr left, step left,
    valueCall expr left, indexed expr left, memberAccess expr left, reject]

lemma exists_reader_byKind {stmt : StmtReader} (s : State) :
    ∃ reader ∈ statementReaders stmt, byKind stmt s = reader s := by
  rw [byKind, bind_of_ok (kind_run s)]
  refine ⟨_, ?_, rfl⟩
  split
  case h_23 => split <;> simp [statementReaders]
  all_goals simp [statementReaders]

lemma exists_reader_operand {expr : ExprReader} (s : State) :
    ∃ reader ∈ operandReaders expr, operand expr s = reader s := by
  rw [operand, bind_of_ok (kind_run s)]
  refine ⟨_, ?_, rfl⟩
  split <;> simp [operandReaders]

lemma exists_reader_operator {expr : ExprReader} (power : Power) (left : Facts) (s : State) :
    ∃ reader ∈ operatorReaders expr power left, operator expr power left s = reader s := by
  rw [operator, bind_of_ok (kind_run s)]
  refine ⟨_, ?_, rfl⟩
  split <;> simp [operatorReaders]

lemma reads_of_mem_statementReaders {reader : Check Exits}
    (h : reader ∈ statementReaders Check.stmt) : Reads .statement n reader := by
  have hstmt : Proceeds .statement n Check.stmt := proceeds_stmt
  simp only [statementReaders, List.mem_cons, List.not_mem_nil, or_false] at h
  rcases h with rfl | rfl | rfl | rfl | rfl | rfl | rfl | rfl | rfl | rfl | rfl | rfl | rfl | rfl |
    rfl | rfl | rfl | rfl | rfl | rfl | rfl
  · exact (opens_block hstmt).reads
  · exact (opens_ifStatement hstmt).reads
  · exact (opens_whileStatement hstmt).reads
  · exact (opens_doStatement hstmt).reads
  · exact (opens_forStatement hstmt).reads
  · exact (opens_foreachStatement hstmt).reads
  · exact (opens_switchStatement hstmt).reads
  · exact opens_jump.reads
  · exact opens_jump.reads
  · exact opens_returnStatement.reads
  · exact opens_throwStatement.reads
  · exact opens_exitStatement.reads
  · exact (opens_tryStatement hstmt).reads
  · exact opens_echo.reads
  · exact opens_emptyStatement.reads
  · exact (consumes_functionStatement hstmt).reads.le n.le_succ
  · exact (consumes_classStatement hstmt).reads.le n.le_succ
  · exact opens_constStatement.reads
  · exact (consumes_annotatedStatement hstmt).reads.le n.le_succ
  · exact consumes_exprStatement.reads
  · exact consumes_reject.reads

lemma reads_of_mem_operandReaders {reader : Check Facts}
    (h : reader ∈ operandReaders Check.expr) : Reads .expression n reader := by
  simp only [operandReaders, List.mem_cons, List.not_mem_nil, or_false] at h
  rcases h with rfl | rfl | rfl | rfl | rfl | rfl | rfl | rfl
  · exact opens_literal.reads
  · exact opens_variableUse.reads
  · exact (opens_nameUse consumes_expr).reads
  · exact (opens_signed consumes_expr).reads
  · exact (opens_grouped consumes_expr).reads
  · exact (opens_arrayLiteral consumes_expr).reads
  · exact (opens_instanceCreation consumes_expr).reads
  · exact consumes_reject.reads

lemma reads_of_mem_operatorReaders {power : Power} {left : Facts} {reader : Check Facts}
    (h : reader ∈ operatorReaders Check.expr power left) : Reads .expression n reader := by
  simp only [operatorReaders, List.mem_cons, List.not_mem_nil, or_false] at h
  rcases h with rfl | rfl | rfl | rfl | rfl | rfl | rfl | rfl | rfl | rfl | rfl
  · exact (opens_assignment consumes_expr left).reads
  · exact (opens_conditional consumes_expr left).reads
  · exact (opens_logical consumes_expr power left).reads
  · exact (opens_comparison consumes_expr power left).reads
  · exact (opens_arithmetic consumes_expr power left).reads
  · exact (opens_instanceTest consumes_expr left).reads
  · exact (opens_step left).reads
  · exact (opens_valueCall consumes_expr left).reads
  · exact (opens_indexed consumes_expr left).reads
  · exact (opens_memberAccess consumes_expr left).reads
  · exact consumes_reject.reads

/-! ### The end of the analysis -/

/-- However the computation ends, the cursor stands on one of the same tokens and has not gone
back. -/
def GoesOn (m : Check α) (s : State) : Prop :=
  match m s with
  | .ok _ s' | .error (.fault _) s' =>
      s.cursor.Onward s'.cursor ∧ s'.cursor.index < s.cursor.tokens.size
  | .error .spent _ => False

lemma Reads.goesOn (hm : Reads w s.cursor.remaining m) (hs : s.cursor.IsProper) : GoesOn m s := by
  have hrun := hm s hs le_rfl
  rw [GoesOn]
  revert hrun
  cases m s with
  | ok a s' =>
      rintro ⟨hchange, hs', -⟩
      exact ⟨hchange.cursor, hchange.cursor.tokens ▸ hs'.inside⟩
  | error e s' =>
      cases e with
      | fault fault =>
          rintro ⟨hchange, hs'⟩
          exact ⟨hchange.cursor, hchange.cursor.tokens ▸ hs'.inside⟩
      | spent => exact id

/-- A statement elsewhere than at the end is read or passed over. -/
lemma exists_stmt (hs : s.cursor.IsProper) (hk : s.cursor.kind ≠ .eof) : ∃ exits s',
    Check.stmt s = .ok exits s' ∧ s'.cursor.tokens = s.cursor.tokens ∧
      s.cursor.index < s'.cursor.index ∧ s'.cursor.index < s.cursor.tokens.size := by
  obtain ⟨exits, s', hrun, hchange, hs'⟩ :=
    proceeds_stmt.reads.exists_ok faultless_stmt hs le_rfl
  have hstrict := proceeds_stmt s hs le_rfl
  rw [hrun] at hstrict
  exact ⟨exits, s', hrun, hchange.cursor.tokens, hstrict.2.2 hk,
    hchange.cursor.tokens ▸ hs'.inside⟩

/-- Progress and end of the analysis, for every sequence of tokens that ends in its only end token.
The reader of statements, called elsewhere than at the end, gives a result and has moved, not past
the end token. The reader of expressions ends, and gives a result only after it has moved. No reader
goes back. So both readings of a file end, and the last leaves the cursor on the end token. -/
theorem analysis_comes_to_end (s : State) (hs : s.cursor.IsProper) :
    (s.cursor.kind ≠ .eof → ∃ exits s', Check.stmt s = .ok exits s' ∧
      s'.cursor.tokens = s.cursor.tokens ∧ s.cursor.index < s'.cursor.index ∧
      s'.cursor.index < s.cursor.tokens.size) ∧
    (∀ power, GoesOn (Check.expr power) s ∧
      ∀ facts s', Check.expr power s = .ok facts s' → s.cursor.index < s'.cursor.index) ∧
    ((∃ reader ∈ statementReaders Check.stmt, byKind Check.stmt s = reader s) ∧
      ∀ reader ∈ statementReaders Check.stmt, GoesOn reader s) ∧
    ((∃ reader ∈ operandReaders Check.expr, operand Check.expr s = reader s) ∧
      ∀ reader ∈ operandReaders Check.expr, GoesOn reader s) ∧
    (∀ power left,
      (∃ reader ∈ operatorReaders Check.expr power left,
        operator Check.expr power left s = reader s) ∧
      ∀ reader ∈ operatorReaders Check.expr power left, GoesOn reader s) ∧
    GoesOn declareHere s ∧
    (∃ s', declarations s = .ok () s') ∧
    ∃ exits s', program s = .ok exits s' ∧ s'.cursor.tokens = s.cursor.tokens ∧
      s'.cursor.index + 1 = s.cursor.tokens.size := by
  refine ⟨exists_stmt hs,
    fun power => ⟨(consumes_expr (w := .expression) power).reads.goesOn hs, ?_⟩,
    ⟨exists_reader_byKind s, fun _ h => (reads_of_mem_statementReaders h).goesOn hs⟩,
    ⟨exists_reader_operand s, fun _ h => (reads_of_mem_operandReaders h).goesOn hs⟩,
    fun power left => ⟨exists_reader_operator power left s,
      fun _ h => (reads_of_mem_operatorReaders h).goesOn hs⟩,
    reads_declareHere.goesOn hs, ?_, ?_⟩
  · intro facts s' hrun
    have hstrict := consumes_expr (w := .expression) power s hs le_rfl
    rw [hrun] at hstrict
    exact hstrict.2.2 trivial
  · obtain ⟨s', hrun, -⟩ := exists_declarations hs
    exact ⟨s', hrun⟩
  · obtain ⟨_, exits, final, hpasses⟩ := exists_passes hs
    exact ⟨exits, final, hpasses.analysis, hpasses.ends⟩

/-- A conditional that is broken off by a brace, which recovery stops at. -/
def brokenConditional : State :=
  { cursor := {
      file := "main"
      tokens := #[⟨.kwIf, "if", 0, 2⟩, ⟨.closeCurly, "\x7d", 3, 4⟩, ⟨.eof, "", 4, 4⟩] } }

/-- The broken conditional and the brace are passed over. -/
theorem analysis_comes_to_end_brokenConditional :
    brokenConditional.cursor.IsProper ∧ brokenConditional.cursor.kind ≠ .eof ∧
      (∃ exits s', Check.stmt brokenConditional = .ok exits s' ∧ 0 < s'.cursor.index) ∧
      ∃ exits s', program brokenConditional = .ok exits s' ∧ s'.cursor.index = 2 := by
  have hs : brokenConditional.cursor.IsProper := ⟨by decide, by decide⟩
  have hk : brokenConditional.cursor.kind ≠ .eof := by decide
  obtain ⟨hstmt, -, -, -, -, -, -, exits, s', hrun, -, hend⟩ :=
    analysis_comes_to_end brokenConditional hs
  obtain ⟨exits₁, s₁, hrun₁, -, hlt, -⟩ := hstmt hk
  exact ⟨hs, hk, ⟨exits₁, s₁, hrun₁, hlt⟩, exits, s', hrun, Nat.succ_injective hend⟩

end ScriptCheck.Check
