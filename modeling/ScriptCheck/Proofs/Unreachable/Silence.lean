import ScriptCheck.Proofs.Analysis.Decl.Composition

/-!
Readings that report no code as unreachable.

Only sequences of statements and loops make such reports. Expressions and declarations, which are
put together without these (`Composed`), leave the reports as they are, and read on through the
tokens (`Composed.silent`). Whatever is read, reports are only added (`Composed.entries_prefix`).
-/

namespace ScriptCheck

/-! ### Reports of code that is never run -/

/-- The reports of code that is never run. -/
def Log.unreachable (log : Log) : List Diagnostic :=
  log.entries.filter (·.label == some "UnreachableCode")

/-- No other cause has this label. -/
lemma Cause.eq_unreachableCode {cause : Cause} (h : cause.label = "UnreachableCode") :
    cause = .unreachableCode := by
  cases cause with
  | unreachableCode => rfl
  | _ => simp [label] at h

namespace Log

lemma mem_unreachable_iff {log : Log} {d : Diagnostic} :
    d ∈ log.unreachable ↔ d ∈ log.entries ∧ d.label = some "UnreachableCode" := by
  rw [unreachable, List.mem_filter, beq_iff_eq]

/-- Reports of other causes do not matter. -/
lemma unreachable_addFault {log : Log} {fault : Fault} (h : fault.cause ≠ .unreachableCode) :
    (log.addFault fault).unreachable = log.unreachable := by
  have hlabel : ((Diagnostic.ofFault fault).label == some "UnreachableCode") = false :=
    beq_false_of_ne fun heq => h (Cause.eq_unreachableCode (Option.some.inj heq))
  rw [addFault, add]
  split
  · rfl
  · rw [unreachable, List.filter_append, List.filter_singleton, hlabel]
    exact List.append_nil _

lemma unreachable_foldl_addFault {faults : List Fault} (log : Log)
    (h : ∀ fault ∈ faults, fault.cause ≠ .unreachableCode) :
    (faults.foldl addFault log).unreachable = log.unreachable := by
  induction faults generalizing log with
  | nil => rfl
  | cons fault faults ih =>
      obtain ⟨hfault, hfaults⟩ := List.forall_mem_cons.mp h
      rw [List.foldl_cons, ih _ hfaults, unreachable_addFault hfault]

/-- A report that is there is not added. -/
lemma nodup_foldl_addFault (faults : List Fault) {log : Log} (h : log.entries.Nodup) :
    (faults.foldl addFault log).entries.Nodup := by
  induction faults generalizing log with
  | nil => exact h
  | cons fault faults ih =>
      refine ih ?_
      rw [addFault, add]
      split
      case isTrue => exact h
      case isFalse hnew =>
        rw [Bool.or_eq_true, not_or, List.contains_iff_mem] at hnew
        simpa using h.concat hnew.2

end Log

lemma Cause.BreaksOff.ne_unreachableCode {cause : Cause} (h : cause.BreaksOff) :
    cause ≠ .unreachableCode := by
  cases h <;> nofun

/-- Statements alone report code that is never run. -/
lemma Reported.ne_unreachableCode {w : Extent} {faults : Options → Env → List Fault}
    (h : Reported w faults) (hw : ¬w.RunsCode) (o : Options) (env : Env) :
    ∀ fault ∈ faults o env, fault.cause ≠ .unreachableCode := by
  intro fault hmem heq
  cases h with
  | always only hplain =>
      cases List.mem_singleton.mp hmem
      rw [heq] at hplain
      cases hplain
  | unreachable hruns position => exact hw hruns
  | undeclared routine position raised =>
      dsimp only at hmem
      split at hmem
      · obtain ⟨exception, -, rfl⟩ := List.mem_map.mp hmem
        cases heq
      · cases hmem
  | refused target source only hmismatch =>
      dsimp only at hmem
      split at hmem
      · cases hmem
      · cases List.mem_singleton.mp hmem
        rw [heq] at hmismatch
        cases hmismatch

namespace Check

variable {α : Type} {w : Extent} {m : Check α} {s s' s'' : State}

/-- No report is made twice. -/
lemma Composed.nodup (h : Composed w m) (hs : s.log.entries.Nodup) :
    (endState (m s)).log.entries.Nodup := by
  obtain ⟨faults, hlog⟩ := (h.effects s).log_eq
  rw [hlog]
  exact Log.nodup_foldl_addFault faults hs

/-! ### Silent readings -/

/-- The second state is reached by reading on, and no code is reported as unreachable. -/
structure Silently (s s' : State) : Prop where
  proper : s'.cursor.IsProper
  onward : s.cursor.Onward s'.cursor
  unreachable : s'.log.unreachable = s.log.unreachable

lemma Silently.trans (h : Silently s s') (h' : Silently s' s'') : Silently s s'' :=
  ⟨h'.proper, h.onward.trans h'.onward, h'.unreachable.trans h.unreachable⟩

/-- However an expression or a declaration ends, it has been read silently. -/
lemma Effects.silent (h : Effects w s s') (hw : ¬w.RunsCode) (hs : s.cursor.IsProper) :
    Silently s s' := by
  induction h with
  | trans _ _ hm hf => exact (hm hs).trans (hf (hm hs).proper)
  | move _ honward =>
      obtain ⟨hon, hproper⟩ := honward (fun hfile => hw (.inr hfile)) hs
      exact ⟨hproper, hon, rfl⟩
  | report s hfaults =>
      exact ⟨hs, .refl _,
        Log.unreachable_foldl_addFault _ (hfaults.ne_unreachableCode hw s.options s.env)⟩
  | breakOff _ hcause =>
      exact ⟨hs, .refl _, Log.unreachable_addFault hcause.ne_unreachableCode⟩
  | inClass _ _ hm =>
      have hm := hm hs
      exact ⟨hm.proper, hm.onward, hm.unreachable⟩
  | inRoutine hruns _ _ => exact absurd hruns hw
  | inLoop hruns _ _ => exact absurd hruns hw
  | _ => exact ⟨hs, .refl _, rfl⟩

lemma Composed.silent (h : Composed w m) (hw : ¬w.RunsCode) (hs : s.cursor.IsProper) :
    Silently s (endState (m s)) :=
  (h.effects s).silent hw hs

end Check

end ScriptCheck
