import ScriptCheck.Proofs.Unreachable.Account

/-!
Unreachable code is reported exactly.

Each reader of a compound statement goes with the reader of outlines of the same name
(`outlines_block`, ...), if the readers of the statements inside do. By induction over the depth so
do the readers of statements (`readsItem_stmt`). What is read ahead of the statements of a file
reports no code as unreachable, hence the outline of the statements tells all such reports
(`unreachable_code_reported_exactly`).
-/

namespace ScriptCheck

open Check

variable {o : Check Outline} {m : StmtReader} {s s' : State}

/-! ### Compound statements -/

section Items

variable (h : ReadsItem o m)
include h

lemma outlines_block : Outlines (Outliner.block o) (block m) := by
  refine .require fun _ => .bind (h.statements _) fun exits => ?_
  exact .require fun _ => .pure

lemma outlines_branchesFrom (fuel : Nat) (found : Branches) :
    Outlines (Outliner.branchesFrom o fuel found) (branchesFrom m fuel found) := by
  induction fuel generalizing found with
  | zero => exact .noted composed_spent
  | succ fuel ih =>
      refine .after composed_condition fun facts => .bind h.bodyOf fun body => ?_
      exact .after composed_takes fun goesOn => .ite (ih _) .pure

lemma outlines_ifStatement : Outlines (Outliner.ifStatement o) (ifStatement m) := by
  refine .require fun _ => .after composed_bound fun fuel => ?_
  refine .bind (outlines_branchesFrom h fuel _) fun found => ?_
  refine .after composed_takes fun hasLast => .ite ?_ ?_
  · exact .bind h.bodyOf fun last => .pure
  · exact .bind .pure fun last => .pure

/-- The body of a loop, and what the loop may raise besides. -/
lemma outlines_loop {truth : Option Bool} {raises : NatSet} : Outlines
    (Outliner.loopBody o truth >>= fun exits => pure (exits.alsoRaising raises))
    (do
      let start ← position
      let body ← inLoop m
      let exits ← loopExits body truth start
      return exits.alsoRaising raises) := by
  have hbody := (h.loopBody truth).bind fun exits => .pure (a := exits.alsoRaising raises)
  simpa only [bind_assoc] using hbody

lemma outlines_whileStatement : Outlines (Outliner.whileStatement o) (whileStatement m) :=
  .require fun _ => .after composed_condition fun _ => outlines_loop h

lemma outlines_doStatement : Outlines (Outliner.doStatement o) (doStatement m) := by
  refine .require fun _ => .bind h.bodyOf.inLoop fun body => ?_
  refine .require fun _ => .after composed_condition fun facts => ?_
  exact .require fun _ => .pure

lemma outlines_forStatement : Outlines (Outliner.forStatement o) (forStatement m) := by
  refine .require fun _ => .require fun _ => ?_
  refine .after composed_exprs fun first => .after composed_exprs fun conditions => ?_
  exact .after composed_exprs fun steps => outlines_loop h

lemma outlines_foreachStatement : Outlines (Outliner.foreachStatement o) (foreachStatement m) := by
  refine .require fun _ => .require fun _ => ?_
  refine .after composed_expr fun subject => .require fun _ => ?_
  refine .after steady_iterationTypes.composed fun types => ?_
  refine .after (composed_loopVariables Extent.declaration_ne) fun _ => ?_
  refine .require fun _ => ?_
  exact .bind h.bodyOf.inLoop fun body => .pure

lemma outlines_groupsFrom (fuel : Nat) (found : Groups) :
    Outlines (Outliner.groupsFrom o fuel found) (groupsFrom m fuel found) := by
  induction fuel generalizing found with
  | zero => exact .noted composed_spent
  | succ fuel ih =>
      have hgroup (found : Groups) : Outlines
          (Outliner.statements o [.kwCase, .kwDefault, .closeCurly] >>= fun exits =>
            Outliner.groupsFrom o fuel { found with bodies := found.bodies ++ [exits] })
          (statements m [.kwCase, .kwDefault, .closeCurly] >>= fun exits =>
            groupsFrom m fuel { found with bodies := found.bodies ++ [exits] }) :=
        .bind (h.statements _) fun exits => ih _
      refine .after composed_kind fun here => .ite .pure ?_
      refine .after composed_label fun found => .after composed_takes fun ends => ?_
      exact .ite (hgroup found) (.require fun _ => hgroup found)

lemma outlines_switchStatement : Outlines (Outliner.switchStatement o) (switchStatement m) := by
  refine .require fun _ => .after composed_condition fun subject => ?_
  refine .require fun _ => ?_
  refine .bind (.inLoop (.after composed_bound fun fuel => outlines_groupsFrom h fuel _)) ?_
  exact fun found => .require fun _ => .pure

lemma outlines_catchClause : Outlines (Outliner.catchClause o) (catchClause m) := by
  refine .require fun _ => .require fun _ => ?_
  refine .after composed_bound fun fuel => .after (composed_caughtTypes _) fun types => ?_
  refine .require fun name => .require fun _ => ?_
  refine .after steady_caughtType.composed fun type => ?_
  refine .after (.setVariable _ _ _ Extent.declaration_ne) fun _ => ?_
  exact .bind (outlines_block h) fun body => .pure

lemma outlines_catchClauses (fuel : Nat) :
    Outlines (Outliner.catchClauses o fuel) (catchClauses m fuel) := by
  induction fuel with
  | zero => exact .noted composed_spent
  | succ fuel ih =>
      refine .after composed_kind fun here => .ite ?_ .pure
      exact .bind (outlines_catchClause h) fun clause => .bind ih fun rest => .pure

lemma outlines_finalBlock? : Outlines (Outliner.finalBlock? o) (finalBlock? m) := by
  refine .after composed_takes fun found => .ite ?_ .pure
  exact .bind (outlines_block h) fun exits => .pure

lemma outlines_tryStatement : Outlines (Outliner.tryStatement o) (tryStatement m) := by
  have hend (body : Exits) (clauses : List Handler) (last : Option Exits) : Outlines
      (classes >>= fun t => pure (Exits.guarded t body clauses last))
      (classes >>= fun t => pure (Exits.guarded t body clauses last)) :=
    .after steady_classes.composed fun t => .pure
  refine .require fun keyword => .bind (outlines_block h) fun body => ?_
  refine .after composed_bound fun fuel => .bind (outlines_catchClauses h fuel) fun clauses => ?_
  refine .bind (outlines_finalBlock? h) fun last => .ite ?_ (hend body clauses last)
  refine .after composed_positionOf fun place => ?_
  exact .after (composed_fail (.misplaced _ _) place) fun _ => hend body clauses last

/-! ### Functions and classes -/

lemma outlines_routineBody (head : RoutineHeader) (owner : Option ClassId) (isStatic : Bool) :
    Outlines (Outliner.routineBody o head owner isStatic) (routineBody m head owner isStatic) := by
  have hparams :=
    (steady_setParams Extent.declaration_ne head.signature.isVariadic head.signature.params).composed
  have hbody := Outlines.after hparams fun _ => outlines_block h
  exact .bind (hbody.inRoutine _) fun exits => .noted (steady_checkExit head exits).composed

lemma outlines_functionStatement :
    Outlines (Outliner.functionStatement o) (functionStatement m) := by
  refine .after composed_note? fun leading => .after composed_header fun head => ?_
  refine .after (steady_enterFunction Extent.declaration_ne head).composed fun _ => ?_
  exact .bind (outlines_routineBody h head none false) fun _ => .pure

lemma outlines_methodBody (opened : OpenClass) (method : RoutineHeader)
    (isStatic : Bool) :
    Outlines (Outliner.methodBody o opened method isStatic)
      (methodBody (some m) opened method isStatic) :=
  .after steady_className.composed fun _ => outlines_routineBody h _ _ _

lemma outlines_classMethod (opened : OpenClass) (marks : MemberMarks) :
    Outlines (Outliner.classMethod o opened marks) (classMethod (some m) opened marks) := by
  refine .after composed_header fun found => .after steady_classDef.composed fun decl => ?_
  refine .after (steady_addMember Extent.declaration_ne (.method _)).composed fun _ => ?_
  refine .after composed_takes fun ends => ?_
  have hbody := outlines_methodBody h opened found marks.isStatic
  refine .ite .pure (.ite ?_ hbody)
  refine .after composed_current fun token => .after composed_position fun place => ?_
  exact .after (composed_fail (.misplaced _ _) place) fun _ => hbody

lemma outlines_classMember (opened : OpenClass) :
    Outlines (Outliner.classMember o opened) (classMember (some m) opened) := by
  refine .after composed_bound fun fuel => .after (composed_memberMarksFrom _) fun marks => ?_
  refine .after composed_kind fun next => ?_
  have hproperties := Outlines.noted (composed_classProperties Extent.declaration_ne opened marks)
  cases next
  case kwConst => exact .noted (composed_classConstants Extent.declaration_ne opened marks)
  case kwFunction => exact outlines_classMethod h opened marks
  case var | name | kwArray => exact hproperties
  all_goals exact .noted composed_reject

lemma outlines_membersFrom (opened : OpenClass) (fuel : Nat) :
    Outlines (Outliner.membersFrom o opened fuel) (membersFrom (some m) opened fuel) := by
  induction fuel with
  | zero => exact .noted composed_spent
  | succ fuel ih =>
      refine .after composed_kind fun here => .ite .pure ?_
      exact .bind ((outlines_classMember h opened).recover ()) fun _ => ih

lemma outlines_classDeclaration :
    Outlines (Outliner.classDeclaration o) (classDeclaration (some m)) := by
  have hbody (opened : OpenClass) :
      Outlines (Outliner.classBody o opened) (classBody (some m) opened) := by
    refine .require fun _ => .after composed_bound fun fuel => ?_
    refine .bind (outlines_membersFrom h opened fuel) fun _ => ?_
    exact .require fun _ => .pure
  refine .after composed_note? fun leading => ?_
  refine .after (composed_classHeader Extent.declaration_ne) fun opened => ?_
  exact .bind ((hbody opened).inClass opened.id) fun _ => .pure

lemma outlines_classStatement : Outlines (Outliner.classStatement o) (classStatement m) := by
  refine .bind (outlines_classDeclaration h) fun opened => ?_
  exact .after (steady_checkInheritance Extent.declaration_ne opened.id).composed fun _ => .pure

/-! ### Statements -/

lemma outlines_annotatedStatement :
    Outlines (Outliner.annotatedStatement o) (annotatedStatement m) := by
  refine .after composed_cursor fun c => .ite (outlines_functionStatement h) ?_
  exact .ite (outlines_classStatement h) (.noted (composed_variableStatement Extent.declaration_ne))

lemma outlines_byKind : Outlines (Outliner.byKind o) (byKind m) := by
  refine .after composed_kind fun next => ?_
  cases next
  case openCurly => exact outlines_block h
  case kwIf => exact outlines_ifStatement h
  case kwWhile => exact outlines_whileStatement h
  case kwDo => exact outlines_doStatement h
  case kwFor => exact outlines_forStatement h
  case kwForeach => exact outlines_foreachStatement h
  case kwSwitch => exact outlines_switchStatement h
  case kwBreak | kwContinue => exact .noted composed_jump
  case kwReturn => exact .noted composed_returnStatement
  case kwThrow => exact .noted composed_throwStatement
  case kwExit => exact .noted composed_exitStatement
  case kwTry => exact outlines_tryStatement h
  case kwEcho => exact .noted composed_echo
  case semicolon => exact .noted composed_emptyStatement
  case kwFunction => exact outlines_functionStatement h
  case kwClass | kwInterface | kwAbstract | kwFinal => exact outlines_classStatement h
  case kwConst => exact .noted (composed_constStatement Extent.declaration_ne)
  case openNote => exact outlines_annotatedStatement h
  all_goals exact .ite (.noted composed_exprStatement) (.noted composed_reject)

end Items

lemma readsItem_stmtWithin (depth : Nat) :
    ReadsItem (Outliner.stmtWithin depth) (stmtWithin depth) := by
  induction depth with
  | zero => exact ⟨composed_spent, rfl, fun _ _ _ h => (nomatch h), fun _ _ _ h => nomatch h⟩
  | succ depth ih =>
      have hbody := (outlines_byKind ih).recover .passing
      refine ⟨hbody.composed, ?_, fun s item s' hrun => ?_, fun s item s' hrun => ?_⟩
      · show Outline.exits <$> (cursor >>= fun c =>
          (Outliner.recover .passing (Outliner.byKind (Outliner.stmtWithin depth))).run >>=
            fun found => pure (Outline.mk c.position c.form found.value found.parts)) = _
        rw [stmtWithin, ← hbody.reading, Outliner.reading]
        simp only [map_eq_pure_bind, bind_assoc, pure_bind]
        rfl
      · obtain ⟨c, _, hcursor, hrun⟩ := exists_of_bind hrun
        cases hcursor
        obtain ⟨found, t, -, hrun⟩ := exists_of_bind hrun
        cases hrun
        exact ⟨rfl, rfl⟩
      · obtain ⟨c, _, hcursor, hrun⟩ := exists_of_bind hrun
        cases hcursor
        obtain ⟨found, t, hfound, hrun⟩ := exists_of_bind hrun
        cases hrun
        exact hbody.tells s found _ hfound

lemma readsItem_stmt : ReadsItem Outliner.stmt Check.stmt := by
  refine ⟨composed_stmt, ?_, fun s item s' hrun => ?_, fun s item s' hrun => ?_⟩
  · rw [Outliner.stmt, Check.stmt, map_bind]
    exact congrArg _ (funext fun depth => (readsItem_stmtWithin depth).reading)
  · obtain ⟨depth, _, hbound, hrun⟩ := exists_of_bind hrun
    cases hbound
    exact (readsItem_stmtWithin _).place s item s' hrun
  · obtain ⟨depth, _, hbound, hrun⟩ := exists_of_bind hrun
    cases hbound
    exact (readsItem_stmtWithin _).tells s item s' hrun

/-! ### The whole file -/

lemma Outliner.reading_program : Outliner.program.reading = Check.program := by
  show Outlined.value <$> (enterClasses >>= fun _ => declarations >>= fun _ => rewind >>= fun _ =>
    (Outliner.statements Outliner.stmt []).run) = _
  rw [Check.program, ← (readsItem_stmt.statements []).reading, Outliner.reading]
  simp only [map_eq_pure_bind, bind_assoc]

/-- Reading ahead reports no code as unreachable. -/
lemma unreachable_of_declarations (hs : s.cursor.IsProper) (hrun : declarations s = .ok () s') :
    s'.log.unreachable = s.log.unreachable := by
  have hcomposed : Composed .declaration
      (bound >>= fun fuel => declarationsFrom fuel 0 >>= checkAllInheritance) :=
    .bound fun fuel => (composed_declarationsFrom Extent.declaration_ne fuel 0).bind
      fun ids => (steady_checkAllInheritance Extent.declaration_ne ids).composed
  have hsilent :=
    hcomposed.silent nofun (s := { s with cursor := s.cursor.moveTo 0 }) hs.moveTo_zero
  obtain ⟨_, _, hrewind, hrest⟩ := exists_of_bind hrun
  cases hrewind
  rw [hrest] at hsilent
  exact hsilent.unreachable

/-- With the reports asked for and kept, code that is never run is reported from the start, and
nothing has been reported yet. -/
lemma watches_start (file : String) (tokens : List Token) {options : Options}
    (hasked : options.reportsUnreachable = true)
    (hkept : options.least.rank ≤ Severity.warning.rank) :
    Watches (State.start file tokens options) ∧
      (State.start file tokens options).log.entries = [] := by
  rw [State.start]
  exact ⟨⟨hasked, hkept⟩, rfl⟩

/-- The tokens from the first one up to the end token. -/
lemma taken_to_end {c d : Cursor} (hindex : c.index = 0) (hend : d.index + 1 = c.tokens.size) :
    c.taken d = c.tokens.toList.dropLast := by
  have hlength : d.index = c.tokens.toList.length - 1 := by
    rw [Array.length_toList]
    omega
  rw [Cursor.taken, Cursor.rest, hindex, List.drop_zero, Nat.sub_zero, hlength,
    List.dropLast_eq_take]

/-- The analysis of a file from any state in which nothing has been reported. -/
lemma program_tells (hs : s.cursor.IsProper) (hw : Watches s) (hempty : s.log.entries = []) :
    ∃ exits s', Check.program s = .ok exits s' ∧ (s'.log.IsUnbroken → ∃ items : List Outline,
      Outliner.program.run s = .ok ⟨exits, [.list items]⟩ s' ∧
      exits = Outline.folded items ∧
      Outline.printed (Outline.allIn [.list items]) = s.cursor.tokens.toList.dropLast ∧
      s'.log.unreachable.Nodup ∧
      ∀ d, d ∈ s'.log.unreachable ↔ Outline.Reports (Outline.allIn [.list items]) d) := by
  obtain ⟨declared, exits, s', hpasses⟩ := exists_passes hs
  refine ⟨exits, s', hpasses.analysis, fun hunbroken => ?_⟩
  have hw' := composed_declarations.watches hpasses.ahead ⟨hw.asked, hw.kept⟩
  obtain ⟨items, hitems, hexits, htold⟩ := readsItem_stmt.exists_items hpasses.read
    hpasses.proper.moveTo_zero ⟨hw'.asked, hw'.kept⟩ hunbroken
  refine ⟨items, ?_, hexits, ?_, ?_, fun d => ?_⟩
  · exact (bind_of_ok (enterClasses_run s)).trans ((bind_of_ok hpasses.ahead).trans hitems)
  · rw [htold.printed, taken_to_end (Nat.zero_min _) (hpasses.tokens ▸ hpasses.ends.2)]
    exact congrArg (·.toList.dropLast) hpasses.tokens
  · have hnodup := composed_program.nodup (s := s) (by rw [hempty]; exact List.nodup_nil)
    rw [hpasses.analysis] at hnodup
    exact hnodup.filter _
  · -- nothing was reported ahead of the statements
    have hbefore : declared.log.unreachable = [] := by
      rw [unreachable_of_declarations (s := enteredClasses s) hs hpasses.ahead]
      show s.log.entries.filter _ = []
      rw [hempty]
      rfl
    rw [htold.reports, hbefore]
    exact or_iff_right List.not_mem_nil

/-- **Unreachable code is reported exactly.** The reader of outlines does what the analysis does.
For all tokens that end in their only end token, with reports of unreachable code switched on and
warnings kept, the analysis gives a result. If no reader broke off, the outline of the file that
goes with it is one list of statements. The exits of the file are those of the statements in turn,
and the tokens of the outline are all tokens before the end. Each report of unreachable code is made
once, and the reports are exactly these: for each list of statements anywhere in the outline, the
start of the first statement that comes after statements which do not complete and that is neither a
class nor a function returning no reference; and for each loop whose condition never holds, the
start of its body. -/
theorem unreachable_code_reported_exactly (file : String) (tokens : List Token) (options : Options)
    (htokens : Cursor.IsProper { file := file, tokens := tokens.toArray })
    (hasked : options.reportsUnreachable = true)
    (hkept : options.least.rank ≤ Severity.warning.rank) :
    Outliner.program.reading = Check.program ∧
    ∃ exits s', Check.program (State.start file tokens options) = .ok exits s' ∧
      (∀ source : String, scan file source.toList = .ok tokens →
        checkSource source file options = s'.log) ∧
      (s'.log.IsUnbroken → ∃ items : List Outline,
        Outliner.program.run (State.start file tokens options) = .ok ⟨exits, [.list items]⟩ s' ∧
        exits = Outline.folded items ∧
        Outline.printed (Outline.allIn [.list items]) = tokens.dropLast ∧
        s'.log.unreachable.Nodup ∧
        ∀ d, d ∈ s'.log.unreachable ↔ Outline.Reports (Outline.allIn [.list items]) d) := by
  have hcursor := Check.cursor_start file tokens options
  obtain ⟨hw, hempty⟩ := watches_start file tokens hasked hkept
  obtain ⟨exits, s', hrun, htells⟩ := program_tells (hcursor ▸ htokens) hw hempty
  rw [hcursor] at htells
  refine ⟨Outliner.reading_program, exits, s', hrun, fun source hscan => ?_, htells⟩
  rw [checkSource, hscan]
  dsimp only
  rw [hrun]

/-- Where a reader breaks off an error is reported. -/
lemma Log.isUnbroken_of_severity {log : Log} (h : ∀ d ∈ log.entries, d.severity ≠ .error) :
    log.IsUnbroken :=
  fun _ hbroken hmem => h _ hmem hbroken.severity_eq

/-- A loop that is never run, code after a return in a file and in a function, and the function
itself, whose place does not matter. -/
def deadEnds : String :=
  "while (false) \x7b \x7d return; function f() \x7b return; ; ; \x7d ;"

/-- The three dead ends are found. -/
theorem unreachable_code_reported_exactly_deadEnds :
    ∃ tokens exits s' items, scan "main" deadEnds.toList = .ok tokens ∧
      Check.program (State.start "main" tokens {}) = .ok exits s' ∧
      Outliner.program.run (State.start "main" tokens {}) = .ok ⟨exits, [.list items]⟩ s' ∧
      (∀ d, d ∈ s'.log.unreachable ↔ Outline.Reports (Outline.allIn [.list items]) d) ∧
      s'.log.unreachable = [.unreachableAt ⟨14, "main"⟩, .unreachableAt ⟨49, "main"⟩,
        .unreachableAt ⟨55, "main"⟩] := by
  have hlog : (checkSource deadEnds "main" {}).entries =
      [.unreachableAt ⟨14, "main"⟩, .unreachableAt ⟨49, "main"⟩, .unreachableAt ⟨55, "main"⟩] := by
    decide +kernel
  cases hscan : scan "main" deadEnds.toList with
  | error _ =>
      have hok : (scan "main" deadEnds.toList).toOption.isSome = true := by decide +kernel
      rw [hscan] at hok
      cases hok
  | ok tokens =>
      obtain ⟨-, exits, s', hrun, hsource, hexact⟩ :=
        unreachable_code_reported_exactly "main" tokens {} (isProper_of_scan hscan) rfl (by decide)
      rw [hsource deadEnds hscan] at hlog
      have hunbroken : s'.log.IsUnbroken := by
        refine Log.isUnbroken_of_severity ?_
        rw [hlog]
        decide
      obtain ⟨items, houtline, -, -, -, hreports⟩ := hexact hunbroken
      refine ⟨tokens, exits, s', items, rfl, hrun, houtline, hreports, ?_⟩
      rw [Log.unreachable, hlog]
      rfl

/-- A function after a return is reported if it returns a reference, and not otherwise. -/
theorem reference_function_reported :
    (checkSource "<?php return; function &f() \x7b \x7d" "main" {}).entries =
      [.unreachableAt ⟨14, "main"⟩] ∧
    ((scan "main" "<?php return; function &f() \x7b \x7d".toList).toOption.map fun tokens =>
      let c : Cursor := { file := "main", tokens := tokens.toArray, index := 2 }
      (c.position, c.form)) = some (⟨14, "main"⟩, .function true) ∧
    (checkSource "<?php return; function f() \x7b \x7d" "main" {}).entries = [] := by
  decide +kernel

end ScriptCheck
