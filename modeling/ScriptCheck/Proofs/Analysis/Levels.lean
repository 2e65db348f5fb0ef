import ScriptCheck.Proofs.Analysis.Frames
import ScriptCheck.Proofs.Analysis.Termination
import ScriptCheck.Proofs.Flow.Levels

/-!
Jumps stay within the nesting that the analysis has entered.

The exits of statements fit the number of loops and switches around them (`Exits.Fits`): a jump is
cut down to it where it is read, a loop or switch reads its body one deeper and leaves a level less to
the outside, and a routine starts from none. What is read in between gives the nesting back
(`nesting`).
-/

namespace ScriptCheck

lemma Exits.law_fits : Exits.Law Exits.Fits where
  passing := fits_passing
  stopping := fits_stopping
  alsoRaising classes h := h.alsoRaising classes
  andThen ha hb := ha.andThen hb
  oneOf h := fits_oneOf fun b hb => (h b hb).toInRange
  loop truth h := fits_loop h.toInRange truth
  doWhile truth h := fits_doWhile h.toInRange truth
  guarded _ hbody hclauses hlast :=
    fits_guarded hbody.toInRange (fun clause hmem => (hclauses clause hmem).toInRange) hlast

namespace Check

variable {depth : Nat} {s s' : State} {exits : Exits}

/-- The states inside a number of loops and switches. -/
def nesting : Frame where
  Has depth s := s.loopDepth = depth
  GoesOn _ := True
  has hs heffects := heffects.context.loopDepth.trans hs
  goesOn _ _ _ := trivial
  inLoop hs := congrArg (· + 1) hs
  outside _ := trivial

lemma fits_of_jump {exits : Nat → Exits}
    (hexits : ∀ {level depth : Nat}, level ≤ max depth 1 → (exits level).Fits depth) (depth : Nat) :
    nesting.Gives depth (Exits.Fits depth) (jump exits) := by
  refine ⟨composed_jump, fun s result s' hs hrun _ => ?_⟩
  obtain rfl : s.loopDepth = depth := hs
  obtain ⟨level, -, rfl, -⟩ := exists_of_jump hrun
  exact hexits (min_le_right _ _)

/-- The exits of a statement fit the nesting around it. -/
lemma fits_of_stmt (depth : Nat) : nesting.Gives depth (Exits.Fits depth) Check.stmt := by
  refine Frame.gives_stmt Exits.law_fits (fits_of_jump Exits.fits_breaking)
    (fits_of_jump Exits.fits_continuing) (fun bound depth hstmt => ?_) depth
  refine Frame.gives_switchStatement Exits.law_fits hstmt fun bodies hasDefault classes hbodies => ?_
  exact (Exits.fits_switch (fun b hb => (hbodies b hb).toInRange) _).alsoRaising _

/-! ### Files and routines -/

lemma fits_of_program (hrun : program s = .ok exits s') : exits.Fits s.loopDepth := by
  obtain ⟨_, s₁, hnames, hrun⟩ := exists_of_bind hrun
  obtain ⟨_, s₂, hahead, hrun⟩ := exists_of_bind hrun
  obtain ⟨_, s₃, hback, hrun⟩ := exists_of_bind hrun
  have heffects : Effects .file s s₃ := ((composed_enterClasses Extent.file_ne).effects_of_ok
    hnames).trans ((composed_declarations.effects_of_ok hahead).trans
      (composed_rewind.effects_of_ok hback))
  exact (Frame.gives_statements Exits.law_fits (fits_of_stmt _) []).result s₃ exits s'
    heffects.context.loopDepth hrun trivial

/-- The body of a routine is read outside of any construct, wherever the routine stands. -/
lemma fits_of_inRoutine {routine : Routine} {isVariadic : Bool} {params : List Parameter}
    (hrun : inRoutine routine (setParams isVariadic params >>= fun _ => block Check.stmt) s =
      .ok exits s') : exits.Fits 0 := by
  obtain ⟨t, hbody, rfl⟩ := exists_of_within hrun
  have hfits : nesting.Gives 0 (Exits.Fits 0)
      (setParams isVariadic params >>= fun _ => block Check.stmt) :=
    .after (steady_setParams Extent.statement_ne _ _).composed fun _ =>
      Frame.gives_block Exits.law_fits (fits_of_stmt 0)
  refine hfits.result _ exits t ?_ hbody trivial
  rfl

/-- Jumps stay within the nesting, wherever a statement or a sequence of statements is read. There
is a way out. A jump leaves one construct, or more but no more than there are around it, so that
outside of two constructs no jump leaves more than one. Seen from outside the construct around it,
a jump that goes on leaves exactly one construct less, at least one and no more than there are
outside. A file and the body of a routine are outside of any construct. -/
theorem jump_levels_within_nesting (s : State) :
    (∀ exits s', (Check.stmt s = .ok exits s' ∨
        ∃ ends, statements Check.stmt ends s = .ok exits s') →
      (exits.completes = true ∨ exits.stops = true ∨ exits.mayBreak = true ∨
        exits.mayContinue = true ∨ exits.jumps ≠ []) ∧
      (∀ level ∈ exits.jumps, 2 ≤ level ∧ level ≤ s.loopDepth) ∧
      (s.loopDepth ≤ 1 → exits.jumps = []) ∧
      ∀ levels ∈ [exits.breaks, exits.continues],
        (∀ level ∈ levels, level = 1 ∨ level ∈ exits.jumps) ∧
        (∀ level ∈ levels, 2 < level → 2 ≤ level - 1 ∧ level - 1 ∈ outerLevels levels) ∧
        ∀ outer ∈ outerLevels levels, 1 ≤ outer ∧ outer + 1 ∈ levels ∧
          outer + 1 ≤ s.loopDepth) ∧
    (s.cursor.IsProper → (∃ exits s', Check.stmt s = .ok exits s') ∧
      ∀ ends, ∃ exits s', statements Check.stmt ends s = .ok exits s') ∧
    (s.loopDepth = 0 → ∀ exits s', program s = .ok exits s' → exits.jumps = []) ∧
    ∀ routine isVariadic params exits s',
      inRoutine routine (setParams isVariadic params >>= fun _ => block Check.stmt) s =
        .ok exits s' → exits.jumps = [] := by
  refine ⟨fun exits s' hrun => ?_, fun hs => ⟨?_, fun ends => ?_⟩, fun hs exits s' hrun => ?_,
    fun routine isVariadic params exits s' hrun => ?_⟩
  · have hfits : exits.Fits s.loopDepth := by
      rcases hrun with hrun | ⟨ends, hrun⟩
      · exact (fits_of_stmt _).result s exits s' rfl hrun trivial
      · exact (Frame.gives_statements Exits.law_fits (fits_of_stmt _) ends).result s exits s' rfl hrun
          trivial
    refine ⟨hfits.flag_or_jump, fun level => hfits.le_of_mem_jumps,
      hfits.jumps_eq_nil, ?_⟩
    rw [List.forall_mem_cons, List.forall_mem_singleton]
    exact ⟨⟨fun level hmem => hfits.one_or_mem_jumps (Or.inl hmem),
        Exits.outerLevels_exact hfits.breaks⟩,
      ⟨fun level hmem => hfits.one_or_mem_jumps (Or.inr hmem),
        Exits.outerLevels_exact hfits.continues⟩⟩
  · obtain ⟨exits, s', hrun, -⟩ := proceeds_stmt.reads.exists_ok faultless_stmt hs le_rfl
    exact ⟨exits, s', hrun⟩
  · obtain ⟨exits, s', hrun, -⟩ := (reads_statements proceeds_stmt ends).exists_ok
      (faultless_statements faultless_stmt ends) hs le_rfl
    exact ⟨exits, s', hrun⟩
  · exact (fits_of_program hrun).jumps_eq_nil (hs ▸ Nat.zero_le 1)
  · exact (fits_of_inRoutine hrun).jumps_eq_nil (Nat.zero_le 1)

/-- A block with a break out of five constructs, inside of so many. -/
def deepBreak (depth : Nat) : State :=
  { cursor := {
      file := "main"
      tokens := #[⟨.openCurly, "\x7b", 0, 1⟩, ⟨.kwBreak, "break", 2, 7⟩, ⟨.number, "5", 8, 9⟩,
        ⟨.semicolon, ";", 9, 10⟩, ⟨.closeCurly, "\x7d", 11, 12⟩, ⟨.eof, "", 12, 12⟩] }
    loopDepth := depth }

/-- Inside of two constructs the break leaves both. In a file, or as the body of a routine, it is a
plain one. -/
theorem jump_levels_within_nesting_deepBreak :
    (deepBreak 2).cursor.IsProper ∧
    (∃ exits s', statements Check.stmt [] (deepBreak 2) = .ok exits s') ∧
    (∃ exits s', Check.stmt (deepBreak 2) = .ok exits s' ∧ 2 ∈ exits.jumps ∧
      1 ∈ outerLevels exits.breaks ∧ ∀ level ∈ exits.jumps, 2 ≤ level ∧ level ≤ 2) ∧
    (∃ exits s', program (deepBreak 0) = .ok exits s' ∧ exits.mayBreak = true ∧
      exits.jumps = []) ∧
    ∃ exits s', inRoutine { name := "f", signature := default }
        (setParams false [] >>= fun _ => block Check.stmt) (deepBreak 2) = .ok exits s' ∧
      exits.mayBreak = true ∧ exits.jumps = [] := by
  have hs : (deepBreak 2).cursor.IsProper := ⟨by decide, by decide⟩
  obtain ⟨hread, hends, -, hroutine⟩ := jump_levels_within_nesting (deepBreak 2)
  obtain ⟨-, -, hfile, -⟩ := jump_levels_within_nesting (deepBreak 0)
  obtain ⟨s₁, hinside⟩ : ∃ s', Check.stmt (deepBreak 2) = .ok (.breaking 2) s' := ⟨_, rfl⟩
  obtain ⟨s₂, houtside⟩ : ∃ s', program (deepBreak 0) = .ok (.breaking 1) s' := ⟨_, rfl⟩
  obtain ⟨-, hlevels, -, -⟩ := hread _ s₁ (Or.inl hinside)
  refine ⟨hs, (hends hs).2 [], ⟨_, s₁, hinside, by decide, by decide, hlevels⟩,
    ⟨_, s₂, houtside, by decide, hfile rfl _ s₂ houtside⟩, ?_⟩
  obtain ⟨s₃, hbody⟩ : ∃ s', inRoutine { name := "f", signature := default }
      (setParams false [] >>= fun _ => block Check.stmt) (deepBreak 2) =
        .ok (.breaking 1) s' := ⟨_, rfl⟩
  exact ⟨_, s₃, hbody, by decide, hroutine _ _ _ _ s₃ hbody⟩

end Check

end ScriptCheck
