import ScriptCheck.Proofs.Analysis.Screening
import ScriptCheck.Proofs.Ty.Refinement

/-!
Strictness only adds reports of types that are not accepted.

What is only known to be mixed is accepted everywhere, unless the check is strict. So the analysis of
a file is compared with the strict one:

* `Ty.accepts_lax`: what is accepted under a strict check is accepted under a lax one.
* `Log.Adds`: one log has the reports of another and, besides, only reports of types that are not
  accepted. What is reported at any step keeps two logs related like that (`Reported.adds`).
* `Composed.run_strictly`: where something is not accepted, it is reported and nothing else is done.
  So both analyses go through the same states, but for the options and the log.
-/

namespace ScriptCheck

/-! ### Two logs -/

/-- The report is about a type that is not accepted. -/
def Diagnostic.IsMismatch (d : Diagnostic) : Prop :=
  d.label = some "TypeMatchError" ∨ d.label = some "ArgumentTypeMatchError"

lemma Cause.isMismatch_ofFault {fault : Fault} (h : fault.cause.isMismatch = true) :
    (Diagnostic.ofFault fault).IsMismatch := by
  obtain ⟨cause, position⟩ := fault
  cases cause with
  | typeMismatch expected received => exact .inl rfl
  | argumentMismatch expected received => exact .inr rfl
  | _ => cases h

/-- The second log has the reports of the first and, besides, only reports of types that are not
accepted. -/
structure Log.Adds (log log' : Log) : Prop where
  least : log'.least = log.least
  kept : log.entries ⊆ log'.entries
  added : ∀ d ∈ log'.entries, d ∉ log.entries → d.IsMismatch

namespace Log.Adds

variable {log log' : Log}

lemma refl (log : Log) : log.Adds log :=
  ⟨rfl, List.Subset.refl _, fun _ h hno => absurd h hno⟩

/-- The same fault is reported to both logs. -/
lemma addFault (h : log.Adds log') (fault : Fault) :
    (log.addFault fault).Adds (log'.addFault fault) where
  least := (Check.least_foldl_addFault [fault] log').trans
    (h.least.trans (Check.least_foldl_addFault [fault] log).symm)
  kept d hd := by
    rw [mem_addFault_iff] at hd ⊢
    rw [h.least]
    exact hd.imp_left fun hd => h.kept hd
  added d hd hno := by
    rw [mem_addFault_iff] at hd hno
    rw [h.least] at hd
    push Not at hno
    obtain hd | ⟨rfl, hrank⟩ := hd
    · exact h.added d hd hno.1
    · exact absurd hrank (Nat.not_le_of_lt (hno.2 rfl))

lemma foldl_addFault (h : log.Adds log') (faults : List Fault) :
    (faults.foldl Log.addFault log).Adds (faults.foldl Log.addFault log') := by
  induction faults generalizing log log' with
  | nil => exact h
  | cons fault faults ih => exact ih (h.addFault fault)

/-- A type that is not accepted is reported to the second log only. -/
lemma addMismatch (h : log.Adds log') {fault : Fault} (hfault : fault.cause.isMismatch = true) :
    log.Adds (log'.addFault fault) where
  least := (Check.least_foldl_addFault [fault] log').trans h.least
  kept d hd := mem_addFault_iff.mpr (.inl (h.kept hd))
  added d hd hno := by
    obtain hd | ⟨rfl, -⟩ := mem_addFault_iff.mp hd
    · exact h.added d hd hno
    · exact Cause.isMismatch_ofFault hfault

end Log.Adds

/-- What is reported at a step under lax and under strict options. -/
lemma Reported.adds {w : Extent} {faults : Options → Env → List Fault} (h : Reported w faults)
    {o : Options} (ho : o.strict = false) {log log' : Log} (hlog : log.Adds log') (env : Env) :
    ((faults o env).foldl Log.addFault log).Adds
      ((faults { o with strict := true } env).foldl Log.addFault log') := by
  cases h with
  | always fault _ => exact hlog.foldl_addFault _
  | unreachable _ position => exact hlog.foldl_addFault _
  | undeclared routine position raised => exact hlog.foldl_addFault _
  | refused target source fault hmismatch =>
      dsimp only
      rw [ho]
      by_cases hstrict : target.accepts env.classes true source = true
      · rw [if_pos hstrict, if_pos (Ty.accepts_lax hstrict)]
        exact hlog
      · rw [if_neg hstrict]
        split
        · exact hlog.addMismatch hmismatch
        · exact hlog.addFault fault

/-! ### Two analyses -/

/-- The state under a strict check, with another log. -/
def State.strictly (log : Log) (s : State) : State :=
  { s with options := { s.options with strict := true }, log := log }

namespace Check

variable {α : Type} {w : Extent} {m : Check α} {s : State}

/-- **Strictness only adds reports.** From a state and from the same state under a strict check, whose
log has more reports of types that are not accepted, a computation gives the same result and ends in
states that are related in the same way. -/
lemma Composed.run_strictly (h : Composed w m) (hs : s.options.strict = false) {log : Log}
    (hlog : s.log.Adds log) : ∃ log', (endState (m s)).log.Adds log' ∧
      m (s.strictly log) = mapState (State.strictly log') (m s) := by
  exact h.run_relogged (C := (·.strict = false)) (g := fun o => { o with strict := true })
    (L := Log.Adds) (fun h ho hlog => h.adds ho hlog) (fun _ hlog => hlog.addFault _) hs hlog

lemma start_strictly (file : String) (tokens : List Token) (o : Options) :
    State.start file tokens { o with strict := true } =
      (State.start file tokens { o with strict := false }).strictly { least := o.least } := by
  rw [State.start, State.start]
  rcases Builtin.env with ⟨env, types⟩
  rfl

/-- The strict analysis of some tokens is the lax one with some more reports. -/
lemma program_strictly (file : String) (tokens : List Token) (o : Options) :
    ∃ log, (endState (program (State.start file tokens { o with strict := false }))).log.Adds log ∧
      program (State.start file tokens { o with strict := true }) =
        mapState (State.strictly log)
          (program (State.start file tokens { o with strict := false })) := by
  rw [start_strictly]
  refine composed_program.run_strictly ?_ ?_
  · rw [State.start]
  · rw [log_start]
    exact .refl _

end Check

/-- The log of a source under a strict check has more reports of types that are not accepted. -/
lemma checkSource_adds (source file : String) (o : Options) :
    (checkSource source file { o with strict := false }).Adds
      (checkSource source file { o with strict := true }) := by
  rw [checkSource, checkSource]
  cases scan file source.toList with
  | error fault => exact .refl _
  | ok tokens =>
      obtain ⟨log, hlog, hrun⟩ := Check.program_strictly file tokens o
      dsimp only
      rw [hrun]
      cases hlax : Check.program (State.start file tokens { o with strict := false }) with
      | ok exits s =>
          rw [hlax] at hlog
          exact hlog
      | error e s =>
          rw [hlax] at hlog
          exact hlog

/-- **Strictness only adds type errors.** For every source, file name and all options: every report
that is logged without strictness is logged with it, and every other report of the strict analysis is
about a type, of an argument or another, that is not accepted. The tokens of the source are analyzed
with the same result, and the same classes, functions, constants and variables are known at the
end. -/
theorem strictness_only_adds_mismatches (source file : String) (o : Options) :
    (checkSource source file { o with strict := false }).entries ⊆
      (checkSource source file { o with strict := true }).entries ∧
    (∀ d ∈ (checkSource source file { o with strict := true }).entries,
      d ∉ (checkSource source file { o with strict := false }).entries →
        d.label = some "TypeMatchError" ∨ d.label = some "ArgumentTypeMatchError") ∧
    ∀ tokens, scan file source.toList = .ok tokens →
      ∃ exits s s', Check.program (State.start file tokens { o with strict := false }) = .ok exits s ∧
        Check.program (State.start file tokens { o with strict := true }) = .ok exits s' ∧
        s'.env = s.env ∧ s'.scope = s.scope := by
  have hadds := checkSource_adds source file o
  refine ⟨hadds.kept, hadds.added, fun tokens hscan => ?_⟩
  have hproper := Check.isProper_start hscan { o with strict := false }
  obtain ⟨exits, s, hlax⟩ := Check.exists_program hproper
  obtain ⟨log, -, hstrict⟩ := Check.program_strictly file tokens o
  rw [hlax] at hstrict
  exact ⟨exits, s, s.strictly log, hlax, hstrict, rfl, rfl⟩

/-- A call with an argument of which nothing is known. -/
def unknownArgument : String := "function f(int $n) \x7b\x7d f($m);"

/-- Under a strict check the argument is reported as well. -/
theorem strictness_only_adds_mismatches_unknownArgument :
    (checkSource unknownArgument "main" {}).labels = ["VariableNotDeclared"] ∧
    (checkSource unknownArgument "main" { strict := true }).labels =
      ["VariableNotDeclared", "ArgumentTypeMatchError"] ∧
    (checkSource unknownArgument "main" {}).entries ⊆
      (checkSource unknownArgument "main" { strict := true }).entries ∧
    (∃ d ∈ (checkSource unknownArgument "main" { strict := true }).entries,
      d ∉ (checkSource unknownArgument "main" {}).entries ∧
        (d.label = some "TypeMatchError" ∨ d.label = some "ArgumentTypeMatchError")) ∧
    ∃ tokens exits s s', scan "main" unknownArgument.toList = .ok tokens ∧
      Check.program (State.start "main" tokens {}) = .ok exits s ∧
      Check.program (State.start "main" tokens { strict := true }) = .ok exits s' ∧
      s'.env = s.env ∧ s'.scope = s.scope := by
  have hlax : (checkSource unknownArgument "main" {}).labels = ["VariableNotDeclared"] := by
    decide +kernel
  have hstrict : (checkSource unknownArgument "main" { strict := true }).labels =
      ["VariableNotDeclared", "ArgumentTypeMatchError"] := by
    decide +kernel
  obtain ⟨hkept, hadded, hresult⟩ := strictness_only_adds_mismatches unknownArgument "main" {}
  refine ⟨hlax, hstrict, hkept, ?_, ?_⟩
  · have hlabel : "ArgumentTypeMatchError" ∈
        (checkSource unknownArgument "main" { strict := true }).labels := by
      rw [hstrict]
      exact List.mem_cons_of_mem _ List.mem_cons_self
    obtain ⟨d, hd, hlabel⟩ := List.mem_filterMap.mp hlabel
    have hno : d ∉ (checkSource unknownArgument "main" {}).entries := by
      intro hd
      have hlabel := List.mem_filterMap.mpr ⟨d, hd, hlabel⟩
      rw [← Log.labels, hlax] at hlabel
      simp at hlabel
    exact ⟨d, hd, hno, hadded d hd hno⟩
  · cases hscan : scan "main" unknownArgument.toList with
    | error fault =>
        have hok : (scan "main" unknownArgument.toList).toOption.isSome = true := by decide +kernel
        rw [hscan] at hok
        cases hok
    | ok tokens =>
        obtain ⟨exits, s, s', hlax, hstrict, henv, hscope⟩ := hresult tokens hscan
        exact ⟨tokens, exits, s, s', rfl, hlax, hstrict, henv, hscope⟩

end ScriptCheck
