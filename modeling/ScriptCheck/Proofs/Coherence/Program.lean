import ScriptCheck.Proofs.Coherence.Decl
import ScriptCheck.Proofs.Layout.Program

/-!
An analysis keeps its classes in order.

What is known before a file is read is coherent (`coherent_start`), and each of the three passes
over the file keeps it so. The result, `coherent_at_every_moment`, is about the state at any moment
between two steps of an analysis: classes have different names and are found by them, every class
number that is stored anywhere is that of a class, and the members of every class are its own and
have different names. It holds for any tokens, also those of broken sources.
-/

namespace ScriptCheck

namespace Check

variable {n : Nat}

/-! ### The reader of statements -/

lemma keeps_annotatedStatement {stmt : StmtReader} (hstmt : ∀ n, Keeps n Exits.Within stmt) :
    Keeps n Exits.Within (annotatedStatement stmt) := by
  refine .peek peeks_cursor fun c => .ite (keeps_functionStatement hstmt) ?_
  exact .ite (keeps_classStatement hstmt) keepsAt_variableStatement.keeps

lemma keeps_byKind {stmt : StmtReader} (hstmt : ∀ n, Keeps n Exits.Within stmt) :
    Keeps n Exits.Within (byKind stmt) := by
  have hjump : ∀ level, (Exits.breaking level).Within n ∧ (Exits.continuing level).Within n :=
    fun _ => ⟨NatSet.Within.empty, NatSet.Within.empty⟩
  refine .onKind fun here => ?_
  split
  case h_1 => exact keeps_block hstmt
  case h_2 => exact keeps_ifStatement hstmt
  case h_3 => exact keeps_whileStatement hstmt
  case h_4 => exact keeps_doStatement hstmt
  case h_5 => exact keeps_forStatement hstmt
  case h_6 => exact keeps_foreachStatement hstmt
  case h_7 => exact keeps_switchStatement hstmt
  case h_8 => exact (keepsAt_jump fun level => (hjump level).1).keeps
  case h_9 => exact (keepsAt_jump fun level => (hjump level).2).keeps
  case h_10 => exact keepsAt_returnStatement.keeps
  case h_11 => exact keepsAt_throwStatement.keeps
  case h_12 => exact keepsAt_exitStatement.keeps
  case h_13 => exact keeps_tryStatement hstmt
  case h_14 => exact keepsAt_echo.keeps
  case h_15 => exact keepsAt_emptyStatement.keeps
  case h_16 => exact keeps_functionStatement hstmt
  case h_21 => exact keepsAt_constStatement.keeps
  case h_22 => exact keeps_annotatedStatement hstmt
  case h_23 => exact .ite keepsAt_exprStatement.keeps keeps_reject
  all_goals exact keeps_classStatement hstmt

/-- A statement that is broken off counts as completing; the table keeps what was entered. -/
lemma keeps_stmtWithin (depth : Nat) : Keeps n Exits.Within (stmtWithin depth) := by
  induction depth generalizing n with
  | zero => exact keeps_spent
  | succ depth ih => exact (keeps_byKind fun _ => ih).recover fun _ _ => .passing

lemma keeps_stmt : Keeps n Exits.Within stmt :=
  .bound fun depth => keeps_stmtWithin depth

/-! ### The passes -/

lemma coherent_foldl_addClass {defs : List ClassDef}
    (hdefs : ∀ decl ∈ defs, ∃ name isInterface p, decl = .stub name isInterface p) {env : Env}
    (henv : env.Coherent) :
    let env' := defs.foldl (fun env decl => (env.addClass decl).2) env
    env'.Coherent ∧ env.classes.size ≤ env'.classes.size := by
  induction defs generalizing env with
  | nil => exact ⟨henv, le_rfl⟩
  | cons decl defs ih =>
      obtain ⟨⟨name, isInterface, p, rfl⟩, hrest⟩ := List.forall_mem_cons.mp hdefs
      have hle := env.classes.size_add_le (.stub name isInterface p)
      obtain ⟨hcoherent, hle'⟩ := ih hrest (henv.grow (henv.classes.addStub name isInterface p) hle)
      exact ⟨hcoherent, hle.trans hle'⟩

lemma keeps_enterClasses : Keeps n (fun _ _ => True) enterClasses := by
  intro s hs hsize
  subst hsize
  have hstubs : ∀ decl ∈ namedClasses s.cursor.file .eof s.cursor.tokens.toList,
      ∃ name isInterface p, decl = .stub name isInterface p := by
    intro decl hdecl
    obtain ⟨_, token, isInterface, -, -, hstub⟩ := exists_of_mem_namedClasses hdecl
    exact ⟨_, _, _, hstub⟩
  obtain ⟨henv, hle⟩ := coherent_foldl_addClass hstubs hs.env
  exact ⟨hs.grow henv hle, hle, fun _ _ _ => trivial⟩

lemma keeps_declareHere : Keeps n (fun k found => ∀ id ∈ found, id < k) declareHere := by
  have hnone : Keeps n (fun k found => ∀ id ∈ found, id < k) (pure (none : Option ClassId)) :=
    .pure (by rintro _ ⟨⟩)
  refine .peek peeks_cursor fun c => .ite keeps_classAhead (.ite ?_ hnone)
  exact keepsAt_functionAhead.bind fun _ _ => hnone

lemma keeps_declarationsFrom (steps depth : Nat) :
    Keeps n (fun k ids => ∀ id ∈ ids, id < k) (declarationsFrom steps depth) := by
  induction steps generalizing n depth with
  | zero => exact keeps_spent
  | succ steps ih =>
      have hnone : ∀ k, n ≤ k → ∀ id ∈ (none : Option ClassId), id < k := by
        rintro k - _ ⟨⟩
      refine .onKind fun here => .ite (.pure (List.forall_mem_nil _)) ?_
      refine .peek peeks_cursor fun c => ?_
      refine .either (keeps_declareHere.recover hnone) (.pure (hnone n le_rfl)) ?_
      intro k declared hk hdeclared
      refine .peek peeks_cursor fun c' => .ite ?_ (.advance fun token => ih _)
      refine (ih _).bind fun l rest hl hrest => .pure ?_
      refine List.forall_mem_append.mpr ⟨fun id hid => ?_, hrest⟩
      exact Nat.lt_of_lt_of_le (hdeclared id (Option.mem_toList.mp hid)) hl

lemma keepsAt_checkAllInheritance {ids : List ClassId} (hids : ∀ id ∈ ids, id < n) :
    KeepsAt n (fun _ => True) (checkAllInheritance ids) := by
  induction ids with
  | nil => exact .pure ⟨rfl, trivial⟩
  | cons id ids ih =>
      obtain ⟨hid, hids⟩ := List.forall_mem_cons.mp hids
      exact (keepsAt_checkInheritance hid).bind fun _ _ => ih hids

lemma spares_rewind : Spares rewind :=
  peeks_cursor.spares.bind fun _ => spares_setCursor

lemma keeps_declarations : Keeps n (fun _ _ => True) declarations := by
  refine .after spares_rewind fun _ => .bound fun steps => ?_
  refine (keeps_declarationsFrom steps 0).bind fun k declared _ hdeclared => ?_
  exact (keepsAt_checkAllInheritance hdeclared).mono fun _ _ _ _ => trivial

/-- The pass over the declarations of a file, broken off after some steps. -/
def declaringUpTo (steps : Nat) : Check (List ClassId) := do
  enterClasses
  rewind
  declarationsFrom steps 0

/-- The reading of the statements of a file, broken off after some of them. -/
def readingUpTo (steps : Nat) : Check Exits := do
  enterClasses
  declarations
  rewind
  statementsFrom stmt [] steps .passing false

lemma keeps_declaringUpTo (steps : Nat) :
    Keeps n (fun k ids => ∀ id ∈ ids, id < k) (declaringUpTo steps) := by
  refine keeps_enterClasses.bind fun _ _ _ _ => .after spares_rewind fun _ => ?_
  exact keeps_declarationsFrom steps 0

lemma keeps_readingUpTo (steps : Nat) : Keeps n Exits.Within (readingUpTo steps) := by
  refine keeps_enterClasses.bind fun _ _ _ _ => keeps_declarations.bind fun _ _ _ _ => ?_
  refine .after spares_rewind fun _ => ?_
  exact keeps_statementsFrom (fun _ => keeps_stmt) [] steps .passing false

lemma keeps_program : Keeps n Exits.Within program := by
  refine keeps_enterClasses.bind fun _ _ _ _ => keeps_declarations.bind fun _ _ _ _ => ?_
  exact .after spares_rewind fun _ => keeps_statements (fun _ => keeps_stmt) []

end Check

/-! ### The states of an analysis -/

/-- What is known before a file is read. -/
lemma coherent_builtin :
    Builtin.env.1.Coherent ∧ Builtin.env.2.Within Builtin.env.1.classes.size := by
  decide +kernel

lemma coherent_start (file : String) (tokens : List Token) (options : Options) :
    (State.start file tokens options).Coherent := by
  obtain ⟨henv, htypes⟩ := coherent_builtin
  exact {
    env := henv
    types := htypes
    scope := List.forall_mem_nil _
    routine := by rintro _ ⟨⟩
    inClass := by rintro _ ⟨⟩
    checked := List.forall_mem_nil _ }

/-- A moment in the analysis of a file: at its start, after some steps of the pass over the
declarations, after some statements, or at its end. -/
inductive Moment where
  | start
  | declaring (steps : Nat)
  | reading (steps : Nat)
  | done

/-- The state at a moment of the analysis that starts in the given state. -/
def Moment.state (s : State) : Moment → State
  | start => s
  | declaring steps => Check.endState (Check.declaringUpTo steps s)
  | reading steps => Check.endState (Check.readingUpTo steps s)
  | done => Check.endState (Check.program s)

lemma Moment.coherent_state {s : State} (hs : s.Coherent) (moment : Moment) :
    (moment.state s).Coherent := by
  cases moment with
  | start => exact hs
  | declaring steps => exact (Check.keeps_declaringUpTo steps s hs rfl).1
  | reading steps => exact (Check.keeps_readingUpTo steps s hs rfl).1
  | done => exact (Check.keeps_program s hs rfl).1

end ScriptCheck
