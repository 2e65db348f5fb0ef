import ScriptCheck.Proofs.Analysis.Termination
import ScriptCheck.Proofs.Token.Scan

/-!
Reporting options are filters.

The options other than strictness decide which reports are logged, and nothing else. So the analysis
under some options is compared with the one that logs everything:

* `Log.under`: what the options leave of a log; `Log.under_foldl` says that reporting less and
  filtering afterwards come to the same.
* `Composed.run_relogged`: of two analyses under different options, a computation that is put
  together from steps gives the same result in both, and states that differ in options and logs.
* `Composed.run_under`: the logs differ only in what the options leave of them.
* `checkSource_under`: hence so does the analysis of a source.
* `reporting_options_are_filters`: of two analyses that agree on strictness the logs are filtered
  from one another, and the results are the same.
-/

namespace ScriptCheck

/-! ### What options leave of a log -/

/-- The options do not switch the report off. -/
def Options.asksFor (o : Options) (d : Diagnostic) : Bool :=
  (o.reportsUnreachable || d.label != some "UnreachableCode")
    && (o.reportsThrows || d.label != some "UndeclaredException")

/-- The report is logged under the options. -/
def Options.keeps (o : Options) (d : Diagnostic) : Bool :=
  decide (o.least.rank ≤ d.severity.rank) && o.asksFor d

/-- What the options leave of a log. -/
def Log.under (o : Options) (log : Log) : Log where
  least := o.least
  entries := log.entries.filter o.keeps

/-- The state with other options, and what these leave of the log. -/
def State.under (o : Options) (s : State) : State :=
  { s with options := o, log := s.log.under o }

/-- The state under other options, with another log. -/
def State.relogged (g : Options → Options) (log : Log) (s : State) : State :=
  { s with options := g s.options, log := log }

/-- Nothing is left out of the log. -/
structure State.LogsAll (strict : Bool) (s : State) : Prop where
  options : s.options = { strict := strict }
  least : s.log.least = .notice

lemma Log.add_of_mem {log : Log} {d : Diagnostic} (h : d ∈ log.entries) : log.add d = log := by
  rw [add, if_pos (by simp [h])]

lemma Log.add_of_slight {log : Log} {d : Diagnostic} (h : d.severity.rank < log.least.rank) :
    log.add d = log := by
  rw [add, if_pos (by simp [h])]

lemma Log.add_of_not_mem {log : Log} {d : Diagnostic} (h : d ∉ log.entries)
    (hrank : log.least.rank ≤ d.severity.rank) :
    log.add d = { log with entries := log.entries ++ [d] } := by
  rw [add, if_neg (by simp [h, hrank])]

lemma Log.mem_addFault_iff {log : Log} {fault : Fault} {d : Diagnostic} :
    d ∈ (log.addFault fault).entries ↔ d ∈ log.entries ∨
      d = .ofFault fault ∧ log.least.rank ≤ d.severity.rank := by
  by_cases hmem : Diagnostic.ofFault fault ∈ log.entries
  · rw [addFault, add_of_mem hmem]
    exact ⟨.inl, fun h => h.elim id fun h => h.1 ▸ hmem⟩
  · by_cases hslight : (Diagnostic.ofFault fault).severity.rank < log.least.rank
    · rw [addFault, add_of_slight hslight]
      exact ⟨.inl, fun h => h.elim id fun h => absurd (h.1 ▸ h.2) (Nat.not_le_of_lt hslight)⟩
    · have hrank := Nat.le_of_not_lt hslight
      rw [addFault, add_of_not_mem hmem hrank, List.mem_append, List.mem_singleton]
      exact or_congr_right ⟨fun h => ⟨h, h ▸ hrank⟩, And.left⟩

/-- A report that is asked for is added to what is left, any other leaves it as it was. -/
lemma Log.under_add {log : Log} (hleast : log.least = .notice) (o : Options) (d : Diagnostic) :
    (log.add d).under o = if o.asksFor d then (log.under o).add d else log.under o := by
  have hrank : log.least.rank ≤ d.severity.rank := by
    rw [hleast]
    exact Nat.zero_le _
  by_cases hmem : d ∈ log.entries
  · rw [add_of_mem hmem]
    by_cases hslight : d.severity.rank < o.least.rank
    · rw [add_of_slight hslight, ite_self]
    · split
      case isFalse => rfl
      case isTrue hasks =>
          have hkept : o.keeps d = true := by simp [Options.keeps, hasks, Nat.le_of_not_lt hslight]
          rw [add_of_mem (List.mem_filter.mpr ⟨hmem, hkept⟩)]
  · rw [add_of_not_mem hmem hrank]
    have hentries : Log.under o { log with entries := log.entries ++ [d] } =
        ⟨o.least, log.entries.filter o.keeps ++ [d].filter o.keeps⟩ := by
      rw [Log.under, List.filter_append]
    rw [hentries]
    by_cases hasks : o.asksFor d = true
    · rw [if_pos hasks]
      by_cases hslight : d.severity.rank < o.least.rank
      · have hdropped : o.keeps d = false := by simp [Options.keeps, hslight]
        rw [add_of_slight hslight, List.filter_singleton, hdropped]
        simp [Log.under]
      · have hkept : o.keeps d = true := by simp [Options.keeps, hasks, Nat.le_of_not_lt hslight]
        have hnew : d ∉ (log.under o).entries := fun h => hmem (List.mem_filter.mp h).1
        rw [add_of_not_mem hnew (Nat.le_of_not_lt hslight), List.filter_singleton, hkept]
        rfl
    · have hdropped : o.keeps d = false := by simp [Options.keeps, hasks]
      rw [if_neg hasks, List.filter_singleton, hdropped]
      simp [Log.under]

/-- Reporting only what is asked for, and filtering the log afterwards, come to the same. -/
lemma Log.under_foldl {log : Log} (hleast : log.least = .notice) (o : Options)
    (faults : List Fault) :
    (faults.foldl Log.addFault log).under o =
      (faults.filter fun fault => o.asksFor (.ofFault fault)).foldl Log.addFault
        (log.under o) := by
  induction faults generalizing log with
  | nil => rfl
  | cons fault faults ih =>
      have hleast' : (log.addFault fault).least = .notice :=
        (Check.least_foldl_addFault [fault] log).trans hleast
      rw [List.foldl_cons, ih hleast', addFault, under_add hleast, List.filter_cons]
      split <;> rfl

/-! ### What is reported under options -/

lemma Cause.asksFor_of_not_isOptional {cause : Cause} (h : cause.isOptional = false) (o : Options)
    (position : Position) : o.asksFor (.ofFault ⟨cause, position⟩) = true := by
  have hlabels : cause.label ≠ "UnreachableCode" ∧ cause.label ≠ "UndeclaredException" := by
    cases cause <;> simp [isOptional, label] at h ⊢
  simp [Options.asksFor, Diagnostic.ofFault, hlabels]

lemma Cause.isOptional_of_isMismatch {cause : Cause} (h : cause.isMismatch = true) :
    cause.isOptional = false := by
  cases cause <;> simp [isMismatch] at h <;> rfl

/-- Under any options, what is reported is what they ask for of everything that can be reported. -/
lemma Reported.eq_filter {w : Extent} {faults : Options → Env → List Fault} (h : Reported w faults)
    (o : Options) (env : Env) : faults o env =
      (faults { strict := o.strict } env).filter fun fault => o.asksFor (.ofFault fault) := by
  cases h with
  | always fault hplain =>
      rw [List.filter_singleton, Cause.asksFor_of_not_isOptional hplain]
      rfl
  | unreachable _ position =>
      have hasks : o.asksFor (.ofFault ⟨.unreachableCode, position⟩) = o.reportsUnreachable := by
        simp [Options.asksFor, Diagnostic.ofFault, Cause.label]
      show _ = List.filter _ [_]
      rw [List.filter_singleton, hasks]
      cases hon : o.reportsUnreachable <;> simp [hon]
  | undeclared routine position raised =>
      have hasks : ∀ exception, o.asksFor (.ofFault ⟨.undeclaredException exception routine,
          position⟩) = o.reportsThrows := by
        simp [Options.asksFor, Diagnostic.ofFault, Cause.label]
      show _ = List.filter _ (List.map _ _)
      rw [List.filter_map]
      cases hon : o.reportsThrows <;> simp [Function.comp_def, hasks, hon]
  | refused target source fault hmismatch =>
      have hasks : o.asksFor (.ofFault fault) = true :=
        Cause.asksFor_of_not_isOptional (Cause.isOptional_of_isMismatch hmismatch) o fault.position
      show (if _ then _ else _) = List.filter _ (if _ then _ else _)
      split
      · rfl
      · rw [List.filter_singleton, hasks]
        rfl

/-- The second log is what the options leave of the first, which has everything. -/
structure Log.IsUnder (o : Options) (log log' : Log) : Prop where
  least : log.least = .notice
  eq_under : log' = log.under o

lemma Reported.isUnder {w : Extent} {faults : Options → Env → List Fault} (h : Reported w faults)
    {o : Options} {log log' : Log} (hlog : log.IsUnder o log') (env : Env) :
    Log.IsUnder o ((faults { strict := o.strict } env).foldl Log.addFault log)
      ((faults o env).foldl Log.addFault log') := by
  refine ⟨(Check.least_foldl_addFault _ _).trans hlog.least, ?_⟩
  rw [Log.under_foldl hlog.least, ← h.eq_filter, hlog.eq_under]

/-- A fault that a reader breaks off with can not be switched off. -/
lemma Log.IsUnder.breakOff {o : Options} {log log' : Log} (h : log.IsUnder o log') {fault : Fault}
    (hfault : fault.cause.BreaksOff) : (log.addFault fault).IsUnder o (log'.addFault fault) := by
  refine Reported.isUnder (.always (w := .file) fault ?_) h {}
  generalize fault.cause = cause at hfault ⊢
  cases hfault <;> rfl

namespace Check

variable {α β : Type} {w : Extent} {m : Check α} {s : State}

/-! ### Two analyses -/

/-- The result with another state. -/
def mapState (g : State → State) : EStateM.Result Halt State α → EStateM.Result Halt State α
  | .ok a s => .ok a (g s)
  | .error e s => .error e (g s)

/-- A part that is run in another context, from a state and from a changed one. -/
lemma within_mapState {g g' : State → State} {enter : State → State}
    {leave : State → State → State} (henter : g (enter s) = enter (g s))
    (hleave : ∀ t, g' (leave s t) = leave (g s) (g' t))
    (hm : m (g (enter s)) = mapState g' (m (enter s))) :
    within enter leave m (g s) = mapState g' (within enter leave m s) := by
  rw [within, within, ← henter, hm]
  cases m (enter s) with
  | ok a t => exact congrArg _ (hleave t).symm
  | error e t => exact congrArg _ (hleave t).symm

/-- **Options and logs only matter for reports.** Let a relation of logs be kept by what is reported
at any step under some options and under others, and by the fault that a reader breaks off with.
From a state and from the same state under the other options, with a related log, a computation then
gives the same result, and ends in states that are related in the same way. -/
lemma Composed.run_relogged {C : Options → Prop} {g : Options → Options} {L : Log → Log → Prop}
    (hreport : ∀ {w faults o log log'}, Reported w faults → C o → L log log' → ∀ env,
      L ((faults o env).foldl Log.addFault log) ((faults (g o) env).foldl Log.addFault log'))
    (hbreak : ∀ {fault : Fault} {log log'}, fault.cause.BreaksOff → L log log' →
      L (log.addFault fault) (log'.addFault fault))
    (h : Composed w m) (hs : C s.options) {log : Log} (hlog : L s.log log) :
    ∃ log', L (endState (m s)).log log' ∧
      m (s.relogged g log) = mapState (State.relogged g log') (m s) := by
  induction h generalizing s log with
  | @bind α β m f hm _ ihm ihf =>
      obtain ⟨log₁, hlog₁, hfirst⟩ := ihm hs hlog
      have hcontext := hm.context s
      cases hrun : m s with
      | ok a t =>
          rw [hrun] at hlog₁ hfirst hcontext
          rw [bind_of_ok hfirst, bind_of_ok hrun]
          refine ihf a ?_ hlog₁
          rwa [show t.options = s.options from hcontext.options]
      | error e t =>
          rw [hrun] at hlog₁ hfirst
          rw [bind_of_error hfirst, bind_of_error hrun]
          exact ⟨log₁, hlog₁, rfl⟩
  | move f _ =>
      cases hmove : (f s.cursor).1 with
      | ok a =>
          rw [move_of_ok (s := s.relogged g log) hmove, move_of_ok hmove]
          exact ⟨log, hlog, rfl⟩
      | error fault =>
          rw [move_of_error (s := s.relogged g log) hmove, move_of_error hmove]
          exact ⟨log, hlog, rfl⟩
  | reportBy hfaults => exact ⟨_, hreport hfaults hs hlog s.env, rfl⟩
  | declareNew name type isAnnotated =>
      rw [Check.declareNew, Check.declareNew]
      by_cases hnew : (s.scope.lookup name).isNone = true
      · rw [if_pos hnew]
        exact ⟨log, hlog, if_pos hnew⟩
      · rw [if_neg hnew]
        exact ⟨log, hlog, if_neg hnew⟩
  | @recover α m fallback hm ih =>
      obtain ⟨log₁, hlog₁, hbody⟩ := ih hs hlog
      cases hrun : m s with
      | ok a t =>
          rw [hrun] at hlog₁ hbody
          rw [recover_of_ok hbody, recover_of_ok hrun]
          exact ⟨log₁, hlog₁, rfl⟩
      | error e t =>
          rw [hrun] at hlog₁ hbody
          cases e with
          | spent =>
              rw [recover_of_spent hbody, recover_of_spent hrun]
              exact ⟨log₁, hlog₁, rfl⟩
          | fault fault =>
              -- both break off with the same fault, and report it
              rw [recover_of_fault hbody, recover_of_fault hrun]
              exact ⟨log₁.addFault fault, hbreak (hm.breaksOff hrun) hlog₁, rfl⟩
  | @inClass α m id _ _ ih =>
      obtain ⟨log', hlog', hbody⟩ := ih (s := { s with inClass := some id }) hs hlog
      rw [Check.inClass, endState_within]
      exact ⟨log', hlog', within_mapState rfl (fun t => rfl) hbody⟩
  | @inRoutine α m routine _ _ ih =>
      obtain ⟨log', hlog', hbody⟩ := ih (s := { s with
        scope := [], routine := some routine, inClass := routine.owner, loopDepth := 0 }) hs hlog
      rw [Check.inRoutine, endState_within]
      exact ⟨log', hlog', within_mapState rfl (fun t => rfl) hbody⟩
  | @inLoop α m _ _ ih =>
      obtain ⟨log', hlog', hbody⟩ := ih (s := { s with loopDepth := s.loopDepth + 1 }) hs hlog
      rw [Check.inLoop, endState_within]
      exact ⟨log', hlog', within_mapState rfl (fun t => rfl) hbody⟩
  | _ => exact ⟨log, hlog, rfl⟩

/-- **The options only filter the log.** From a state that logs everything and from the same state
under some options, a computation gives the same result, and ends in the same state under the
options. -/
lemma Composed.run_under (h : Composed w m) (o : Options) (hs : s.LogsAll o.strict) :
    m (s.under o) = mapState (State.under o) (m s) := by
  obtain ⟨log, ⟨-, rfl⟩, hrun⟩ := h.run_relogged (C := (· = { strict := o.strict }))
    (g := fun _ => o) (L := Log.IsUnder o) (fun h hp hlog env => hp ▸ h.isUnder hlog env)
    (fun hfault hlog => hlog.breakOff hfault) hs.options ⟨hs.least, rfl⟩
  refine hrun.trans ?_
  cases m s <;> rfl

/-! ### The analysis of a source -/

lemma start_under (file : String) (tokens : List Token) (o : Options) :
    State.start file tokens o = (State.start file tokens { strict := o.strict }).under o := by
  rw [State.start, State.start]
  rcases Builtin.env with ⟨env, types⟩
  rfl

lemma logsAll_start (file : String) (tokens : List Token) (strict : Bool) :
    (State.start file tokens { strict := strict }).LogsAll strict := by
  rw [State.start]
  rcases Builtin.env with ⟨env, types⟩
  exact ⟨rfl, rfl⟩

lemma cursor_start (file : String) (tokens : List Token) (o : Options) :
    (State.start file tokens o).cursor = { file := file, tokens := tokens.toArray } := by
  rw [State.start]

/-- The analysis of a source starts on its first token. -/
lemma isProper_start {file : String} {source : List Char} {tokens : List Token}
    (h : scan file source = .ok tokens) (o : Options) :
    (State.start file tokens o).cursor.IsProper := by
  rw [cursor_start]
  exact isProper_of_scan h

lemma log_start (file : String) (tokens : List Token) (o : Options) :
    (State.start file tokens o).log = { least := o.least } := by
  rw [State.start]

/-- Under any options the analysis of some tokens is that which logs everything, filtered. -/
lemma program_under (file : String) (tokens : List Token) (o : Options) :
    program (State.start file tokens o) =
      mapState (State.under o) (program (State.start file tokens { strict := o.strict })) := by
  rw [start_under]
  exact composed_program.run_under o (logsAll_start file tokens o.strict)

end Check

/-- The log of a source under any options is the one that has everything, filtered. -/
lemma checkSource_under (source file : String) (o : Options) :
    checkSource source file o = (checkSource source file { strict := o.strict }).under o := by
  rw [checkSource, checkSource]
  cases hscan : scan file source.toList with
  | error fault =>
      have hplain : fault.cause.isOptional = false := by
        obtain ⟨_, _, _, -, -, rfl⟩ := scanFrom_error hscan
        rfl
      have hasks : o.asksFor (.ofFault fault) = true :=
        Cause.asksFor_of_not_isOptional hplain o fault.position
      dsimp only
      rw [Log.addFault, Log.addFault, Log.under_add rfl, if_pos hasks]
      rfl
  | ok tokens =>
      dsimp only
      rw [Check.program_under]
      cases Check.program (State.start file tokens { strict := o.strict }) <;> rfl

/-- If one analysis keeps of the reports that another keeps those with a property, its log is the
other's filtered by the property. -/
lemma entries_checkSource {o o' : Options} (hstrict : o'.strict = o.strict)
    {p : Diagnostic → Bool} (hkeeps : ∀ d, o'.keeps d = (p d && o.keeps d)) (source file : String) :
    (checkSource source file o').entries = (checkSource source file o).entries.filter p := by
  rw [checkSource_under source file o', checkSource_under source file o, hstrict, Log.under,
    Log.under, List.filter_filter]
  exact List.filter_congr fun d _ => hkeeps d

/-- **Reporting options are filters.** For every source and file name and all options: under a
higher least severity exactly the reports that reach it are logged, in the same order; with reports
of unreachable code or of undeclared exceptions switched off, exactly the reports of that name are
missing. Under all options that agree on strictness the tokens of the source are analyzed with the
same result, and the same classes, functions, constants and variables are known at the end. -/
theorem reporting_options_are_filters (source file : String) (o : Options) :
    (∀ least : Severity, o.least.rank ≤ least.rank →
      (checkSource source file { o with least := least }).entries =
        (checkSource source file o).entries.filter fun d => least.rank ≤ d.severity.rank) ∧
    (checkSource source file { o with reportsUnreachable := false }).entries =
      (checkSource source file { o with reportsUnreachable := true }).entries.filter
        (·.label != some "UnreachableCode") ∧
    (checkSource source file { o with reportsThrows := false }).entries =
      (checkSource source file { o with reportsThrows := true }).entries.filter
        (·.label != some "UndeclaredException") ∧
    ∀ (o' : Options) (tokens : List Token), o'.strict = o.strict →
      scan file source.toList = .ok tokens →
      ∃ exits s s', Check.program (State.start file tokens o) = .ok exits s ∧
        Check.program (State.start file tokens o') = .ok exits s' ∧
        s'.env.classes = s.env.classes ∧ s'.env.functions = s.env.functions ∧
        s'.env.constants = s.env.constants ∧ s'.scope = s.scope := by
  refine ⟨fun least hleast => ?_, ?_, ?_, fun o' tokens hstrict hscan => ?_⟩
  · refine entries_checkSource (by rfl) (fun d => ?_) source file
    by_cases hrank : least.rank ≤ d.severity.rank
    · simp [Options.keeps, Options.asksFor, hrank, hleast.trans hrank]
    · simp [Options.keeps, hrank]
  · refine entries_checkSource (by rfl) (fun d => ?_) source file
    simp [Options.keeps, Options.asksFor, Bool.and_left_comm]
  · refine entries_checkSource (by rfl) (fun d => ?_) source file
    simp [Options.keeps, Options.asksFor, Bool.and_comm, Bool.and_assoc]
  · have hproper : (State.start file tokens { strict := o.strict }).cursor.IsProper := by
      rw [Check.cursor_start]
      exact isProper_of_scan hscan
    obtain ⟨exits, s, hrun⟩ := Check.exists_program hproper
    refine ⟨exits, s.under o, s.under o', ?_, ?_, rfl, rfl, rfl, rfl⟩
    · rw [Check.program_under, hrun]
      rfl
    · rw [Check.program_under, hstrict, hrun]
      rfl

/-- A call that is never run, of a function that is not there. -/
def deadCall : String := "return; f();"

/-- The warning is filtered out, and the analysis is the same otherwise. -/
theorem reporting_options_are_filters_deadCall :
    (checkSource deadCall "main" {}).labels = ["FunctionNotDeclared", "UnreachableCode"] ∧
    (checkSource deadCall "main" { least := .error }).entries =
      (checkSource deadCall "main" {}).entries.filter
        (fun d => Severity.error.rank ≤ d.severity.rank) ∧
    ∃ tokens exits s s', scan "main" deadCall.toList = .ok tokens ∧
      Check.program (State.start "main" tokens {}) = .ok exits s ∧
      Check.program (State.start "main" tokens { reportsUnreachable := false }) = .ok exits s' ∧
      s'.env.classes = s.env.classes ∧ s'.scope = s.scope := by
  obtain ⟨hleast, -, -, hresult⟩ := reporting_options_are_filters deadCall "main" {}
  refine ⟨by decide +kernel, hleast .error (by decide), ?_⟩
  cases hscan : scan "main" deadCall.toList with
  | error fault =>
      have hok : (scan "main" deadCall.toList).toOption.isSome = true := by decide +kernel
      rw [hscan] at hok
      cases hok
  | ok tokens =>
      obtain ⟨exits, s, s', hrun, hrun', hclasses, -, -, hscope⟩ :=
        hresult { reportsUnreachable := false } tokens rfl hscan
      exact ⟨tokens, exits, s, s', rfl, hrun, hrun', hclasses, hscope⟩

end ScriptCheck
