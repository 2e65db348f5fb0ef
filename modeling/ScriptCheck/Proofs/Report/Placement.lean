import ScriptCheck.Proofs.Layout.Independence
import ScriptCheck.Proofs.Report.Lines

/-!
Every report points into the file.

* There is a line for every offset up to the end of the source (`exists_lineAt`).
* A source that can be scanned has its tokens inside (`start_le_of_scan`); one that cannot has a
  character at which no lexeme starts, and that is where the scan stops (`scanFrom_error`).
* In an analysis, positions go through headers, class tables and notes, and there are positions in no
  file. That none of these gets into a report follows from relocation: if every position apart from
  those of the tokens is moved away, the analysis is still the same (`exists_token_of_program`).
-/

namespace ScriptCheck

/-! ### Reports -/

/-- A position that does not move is that of a token: the spare places lie further on. -/
lemma TwoLayouts.exists_token_of_moved_eq (l : TwoLayouts) {odd : Bool} {p : Position}
    (h : l.moved odd p = p) : ∃ t ∈ l.first, p = ⟨t.start, l.file⟩ := by
  obtain ⟨offset, file⟩ := p
  have hspare : l.spare odd offset ≠ offset := by
    rw [spare, beyond]
    omega
  rw [moved] at h
  split_ifs at h with hfile
  · obtain ⟨t, t', ⟨i, ht, -⟩, rfl, -⟩ | hmoved := l.startAt_cases odd offset
    · exact ⟨t, List.mem_of_getElem? ht, by rw [← hfile]⟩
    · rw [hmoved] at h
      exact absurd (congrArg Position.offset h) hspare
  · exact absurd (congrArg Position.offset h) hspare

/-- Every report of an analysis stands at a token of the file. -/
lemma exists_token_of_program {file : String} {tokens : List Token} (hlayout : IsLayout tokens)
    {options : Options} {exits : Exits} {s : State}
    (h : Check.program (State.start file tokens options) = .ok exits s) :
    ∀ d ∈ s.log.entries, ∃ t ∈ tokens, d.position = ⟨t.start, file⟩ := by
  -- each token is its own counterpart, so that only what is not at a token moves
  let l : TwoLayouts := ⟨file, tokens, tokens, rfl, hlayout.starts, hlayout.starts⟩
  have hfits : (builtinLaw (l.relocation false)).Fits 0 (State.start file tokens options) := {
    proper := by
      rw [Check.cursor_start]
      exact hlayout.isProper file
    tokens := by rw [Check.cursor_start]; rfl
    file := by rw [Check.cursor_start]; rfl
    reached := Nat.zero_le _
    holds := hasBuiltins_start file tokens options }
  have hmoved : Check.program (State.start file tokens options) =
      .ok exits ((l.relocation false).state s) := by
    have hrun := Check.agree_program.run hfits h
    rw [l.state_start false options] at hrun
    exact hrun
  have hentries : s.log.entries.map (l.relocation false).diagnostic = s.log.entries := by
    injection hmoved.symm.trans h with _ hstate
    exact congrArg (·.log.entries) hstate
  intro d hd
  have hsame := List.map_inj_left.mp (hentries.trans (List.map_id _).symm) d hd
  exact l.exists_token_of_moved_eq (congrArg Diagnostic.position hsame)

/-- **Every report points into the file.** For every source, file name and all options, a report in
the log has the name of the file. Its offset is that of a token of the source, the end token
included, or, if the source cannot be scanned, that of the character at which the scan stops because
no lexeme starts there. There is a line of the source for it. -/
theorem reports_point_into_the_file (source file : String) (options : Options) :
    ∀ d ∈ (checkSource source file options).entries,
      d.position.file = file ∧
      ((∃ tokens, scan file source.toList = .ok tokens ∧
          ∃ t ∈ tokens, d.position.offset = t.start) ∨
        ∃ before c after, source.toList = before ++ c :: after ∧
          Lexeme.first (c :: after) = none ∧ d.position.offset = Text.byteCount before ∧
          scan file source.toList = .error ⟨.strayCharacter (String.singleton c), d.position⟩) ∧
      ∃ place, lineAt source.toList d.position.offset = some place := by
  intro d hd
  rw [checkSource] at hd
  cases hscan : scan file source.toList with
  | error fault =>
      rw [hscan] at hd
      obtain ⟨before, c, after, hsource, hfirst, rfl⟩ := scanFrom_error hscan
      obtain hd | ⟨rfl, -⟩ := Log.mem_addFault_iff.mp hd
      · cases hd
      · refine ⟨rfl, .inr ⟨before, c, after, hsource, hfirst, Nat.zero_add _, rfl⟩, ?_⟩
        refine exists_lineAt ?_
        rw [hsource, Text.byteCount_append]
        show 0 + Text.byteCount before ≤ _
        omega
  | ok tokens =>
      obtain ⟨exits, s, hrun⟩ := Check.exists_program (Check.isProper_start hscan options)
      rw [hscan] at hd
      dsimp only at hd
      rw [hrun] at hd
      obtain ⟨t, ht, hposition⟩ := exists_token_of_program (isLayout_of_scan hscan) hrun d hd
      rw [hposition]
      refine ⟨rfl, .inl ⟨tokens, rfl, t, ht, rfl⟩, exists_lineAt ?_⟩
      exact start_le_of_scan hscan t ht

/-- A class with the name of one that is known before the file is read. -/
def redeclaredBuiltin : String := "class Exception \x7b\x7d"

/-- The class is reported where its name stands in the file, not where the known one is declared. -/
theorem reports_point_into_the_file_redeclaredBuiltin :
    ∃ d ∈ (checkSource redeclaredBuiltin "main" {}).entries,
      d.label = some "ClassAlreadyDeclared" ∧ d.position = ⟨6, "main"⟩ ∧
      (∃ tokens, scan "main" redeclaredBuiltin.toList = .ok tokens ∧
        ∃ t ∈ tokens, d.position.offset = t.start) ∧
      ∃ place, lineAt redeclaredBuiltin.toList d.position.offset = some place := by
  obtain ⟨d, hd, hlabel, hposition⟩ : ∃ d ∈ (checkSource redeclaredBuiltin "main" {}).entries,
      d.label = some "ClassAlreadyDeclared" ∧ d.position = ⟨6, "main"⟩ := by decide +kernel
  obtain ⟨-, htoken | ⟨_, _, _, -, -, -, hstray⟩, hline⟩ :=
    reports_point_into_the_file redeclaredBuiltin "main" {} d hd
  · exact ⟨d, hd, hlabel, hposition, htoken, hline⟩
  · have hscan : (scan "main" redeclaredBuiltin.toList).toOption.isSome = true := by decide +kernel
    rw [hstray] at hscan
    cases hscan

end ScriptCheck
