import ScriptCheck.Proofs.Class.Ancestors
import ScriptCheck.Proofs.Flow.Runs

/-!
The exits of a statement cover every outcome of its runs.

Each operation on exits has a lemma that says which outcomes it covers, given what its parts cover:
`covers_join`, `covers_orStops`, `covers_oneOf`, `covers_andThen_of_ne`, `covers_loop`,
`covers_doWhile`, `covers_switch` and, for guarded bodies, `covers_guardedKept`. Leaving out a
caught exception is right because the subclasses of a caught class are caught with it, which is
`isSubclass_trans`. Soundness, `ends_covered`, is then one induction over the run.
-/

namespace ScriptCheck

/-! ### Levels of jumps -/

/-- Outside one construct a jump has a level less, and those of level one are gone. -/
lemma mem_outerLevels {levels : NatSet} {k : Nat} :
    k ∈ outerLevels levels ↔ 1 ≤ k ∧ k + 1 ∈ levels := by
  simp only [outerLevels, NatSet.mem_ofList, List.mem_map, ← NatSet.mem_def, NatSet.mem_filter,
    decide_eq_true_eq]
  constructor
  · rintro ⟨m, ⟨hm, hle⟩, rfl⟩
    have hm' : m - 1 + 1 = m := by omega
    exact ⟨by omega, hm'.symm ▸ hm⟩
  · rintro ⟨hk, hmem⟩
    exact ⟨k + 1, ⟨hmem, by omega⟩, by omega⟩

lemma mem_outerLevels_of_mem {levels : NatSet} {k : Nat} (hk : 1 ≤ k) (hne : k ≠ 1)
    (hmem : k ∈ levels) : k - 1 ∈ outerLevels levels := by
  have hk' : k - 1 + 1 = k := by omega
  exact mem_outerLevels.mpr ⟨by omega, hk'.symm ▸ hmem⟩

namespace Exits

variable {t : ClassTable} {a b s : Exits} {o : Outcome}

/-! ### Joins, branches and sequences -/

lemma covers_join : (a.join b).Covers t o ↔ a.Covers t o ∨ b.Covers t o := by
  cases o with
  | normal => simp [Covers, join]
  | broke level => simp only [Covers, join, NatSet.mem_union]; tauto
  | continued level => simp only [Covers, join, NatSet.mem_union]; tauto
  | stopped => simp [Covers, join]
  | raised id => simp only [Covers, join, NatSet.mem_union, or_and_right, exists_or]

/-- Counting a statement that nothing leaves as stopping only adds an outcome. -/
lemma covers_orStops (h : s.Covers t o) : s.orStops.Covers t o := by
  rw [orStops]
  split
  · exact h
  · cases o with
    | stopped => rfl
    | normal => exact h
    | broke level => exact h
    | continued level => exact h
    | raised id => exact h

lemma covers_foldl_join (l : List Exits) :
    (l.foldl join s).Covers t o ↔ s.Covers t o ∨ ∃ b ∈ l, b.Covers t o := by
  induction l generalizing s with
  | nil => simp
  | cons b l ih => simp only [List.foldl_cons, ih, covers_join, List.mem_cons, or_assoc,
      exists_eq_or_imp]

lemma covers_oneOf {l : List Exits} (hb : b ∈ l) (h : b.Covers t o) : (oneOf l).Covers t o :=
  covers_orStops ((covers_foldl_join l).mpr (Or.inr ⟨b, hb, h⟩))

lemma covers_completes_false (h : s.Covers t o) (ho : o ≠ .normal) :
    Covers t { s with completes := false } o := by
  cases o with
  | normal => exact absurd rfl ho
  | broke level => exact h
  | continued level => exact h
  | stopped => exact h
  | raised id => exact h

/-- What leaves the first statement leaves the sequence. -/
lemma covers_andThen_of_ne (h : a.Covers t o) (ho : o ≠ .normal) : (a.andThen b).Covers t o := by
  rw [andThen]
  split
  · exact covers_join.mpr (Or.inl (covers_completes_false h ho))
  · exact h

/-- If the first statement may complete, every outcome of the second may follow. -/
lemma covers_andThen (ha : a.Covers t .normal) (h : b.Covers t o) : (a.andThen b).Covers t o := by
  rw [andThen, if_pos (show a.completes = true from ha)]
  exact covers_join.mpr (Or.inr h)

/-! ### Loops -/

/-- An outcome that leaves a loop is covered by the outer levels of the body, if the loop completes
whenever the body may break. -/
lemma covers_of_leaveLoop {body : Exits} {completes : Bool} {o' : Outcome}
    (hcompletes : body.mayBreak = true → completes = true) (h : body.Covers t o)
    (ho : o.leaveLoop = some o') :
    Covers t
      { completes := completes
        stops := body.stops
        breaks := outerLevels body.breaks
        continues := outerLevels body.continues
        raises := body.raises } o' := by
  cases o with
  | normal => simp [Outcome.leaveLoop] at ho
  | broke level =>
      obtain ⟨hle, hmem⟩ := h
      by_cases h1 : level = 1
      -- a break of this loop completes it
      · subst h1
        obtain rfl : Outcome.normal = o' := by simpa [Outcome.leaveLoop] using ho
        exact hcompletes (by simpa [mayBreak] using hmem)
      · obtain rfl : Outcome.broke (level - 1) = o' := by simpa [Outcome.leaveLoop, h1] using ho
        exact ⟨by omega, mem_outerLevels_of_mem hle h1 hmem⟩
  | continued level =>
      obtain ⟨hle, hmem⟩ := h
      by_cases h1 : level = 1
      · simp [Outcome.leaveLoop, h1] at ho
      · obtain rfl : Outcome.continued (level - 1) = o' := by
          simpa [Outcome.leaveLoop, h1] using ho
        exact ⟨by omega, mem_outerLevels_of_mem hle h1 hmem⟩
  | stopped =>
      obtain rfl : Outcome.stopped = o' := by simpa [Outcome.leaveLoop] using ho
      exact h
  | raised id =>
      obtain rfl : Outcome.raised id = o' := by simpa [Outcome.leaveLoop] using ho
      exact h

lemma covers_loop {body : Exits} {condition : Option Bool} {o' : Outcome} (h : body.Covers t o)
    (ho : o.leaveLoop = some o') : (body.loop condition).Covers t o' := by
  refine covers_orStops (covers_of_leaveLoop ?_ h ho)
  intro hbreak
  simp [hbreak]

lemma covers_loop_normal {body : Exits} {condition : Option Bool} (h : condition ≠ some true) :
    (body.loop condition).Covers t .normal :=
  covers_orStops (by simp [Covers, h])

lemma covers_doWhile {body : Exits} {condition : Option Bool} {o' : Outcome} (h : body.Covers t o)
    (ho : o.leaveLoop = some o') : (body.doWhile condition).Covers t o' := by
  refine covers_orStops (covers_of_leaveLoop ?_ h ho)
  intro hbreak
  simp [hbreak]

/-- The test at the end is reached from a body that completes or continues. -/
lemma covers_doWhile_normal {body : Exits} {condition : Option Bool} (h : body.Covers t o)
    (ho : o.leaveLoop = none) (hc : condition ≠ some true) :
    (body.doWhile condition).Covers t .normal := by
  refine covers_orStops ?_
  have hreached : (body.completes || body.mayContinue) = true := by
    cases o with
    | normal => rw [show body.completes = true from h, Bool.true_or]
    | broke level => simp [Outcome.leaveLoop] at ho
    | continued level =>
        obtain rfl : level = 1 := by
          by_contra h1
          simp [Outcome.leaveLoop, h1] at ho
        have hmay : body.mayContinue = true := by simpa [mayContinue] using h.2
        rw [hmay, Bool.or_true]
    | stopped => simp [Outcome.leaveLoop] at ho
    | raised id => simp [Outcome.leaveLoop] at ho
  simp [Covers, hreached, hc]

/-! ### Switches -/

/-- One group of a switch covers what its outcomes become outside; only the end of the last group
is the end of the switch. -/
lemma covers_switchGroup {isLast : Bool} (h : s.Covers t o) (ho : o = .normal → isLast = true) :
    (s.switchGroup isLast).Covers t o.leaveSwitch := by
  cases o with
  | normal =>
      have hs : s.completes = true := h
      simp [Covers, switchGroup, Outcome.leaveSwitch, hs, ho rfl]
  | broke level =>
      obtain ⟨hle, hmem⟩ := h
      by_cases h1 : level = 1
      · subst h1
        have hmay : s.mayBreak = true := by simpa [mayBreak] using hmem
        simp [Covers, switchGroup, Outcome.leaveSwitch, hmay]
      · rw [Outcome.leaveSwitch, if_neg h1]
        exact ⟨by omega, mem_outerLevels_of_mem hle h1 hmem⟩
  | continued level =>
      obtain ⟨hle, hmem⟩ := h
      by_cases h1 : level = 1
      · subst h1
        refine ⟨le_refl 1, NatSet.mem_union.mpr (Or.inl ?_)⟩
        exact NatSet.mem_filter.mpr ⟨hmem, rfl⟩
      · rw [Outcome.leaveSwitch, if_neg h1]
        exact ⟨by omega, NatSet.mem_union.mpr (Or.inr (mem_outerLevels_of_mem hle h1 hmem))⟩
  | stopped => exact h
  | raised id => exact h

lemma switchGroups_cons (group next : Exits) (rest : List Exits) :
    switchGroups (group :: next :: rest) =
      (group.switchGroup false).join (switchGroups (next :: rest)) := by
  rw [switchGroups]
  simp

/-- Groups that run into one another, as the sequence of their exits. -/
def chained (first : Exits) : List Exits → Exits
  | [] => first
  | next :: rest => first.andThen (chained next rest)

/-- What leaves a sequence comes from the first statement, or from the second after the first. -/
lemma covers_of_andThen (h : (a.andThen b).Covers t o) :
    (a.Covers t o ∧ o ≠ .normal) ∨ (a.Covers t .normal ∧ b.Covers t o) := by
  rw [andThen] at h
  split at h
  case isTrue hc =>
    rcases covers_join.mp h with h | h
    · refine Or.inl ⟨?_, ?_⟩
      · cases o with
        | normal => simp [Covers] at h
        | broke level => exact h
        | continued level => exact h
        | stopped => exact h
        | raised id => exact h
      · rintro rfl
        simp [Covers] at h
    · exact Or.inr ⟨hc, h⟩
  case isFalse hc =>
    refine Or.inl ⟨h, ?_⟩
    rintro rfl
    exact hc h

/-- A run that enters a switch at some group and runs on is covered by the groups from there. -/
lemma covers_switchGroups {group : Exits} {rest : List Exits}
    (h : (chained group rest).Covers t o) :
    (switchGroups (group :: rest)).Covers t o.leaveSwitch := by
  induction rest generalizing group with
  | nil => exact covers_switchGroup h fun _ => rfl
  | cons next rest ih =>
      rw [switchGroups_cons]
      rcases covers_of_andThen h with ⟨h, ho⟩ | ⟨-, h⟩
      · exact covers_join.mpr (Or.inl (covers_switchGroup h fun hn => absurd hn ho))
      · exact covers_join.mpr (Or.inr (ih h))

/-- Later groups contribute to the whole. -/
lemma covers_switchGroups_of_suffix {groups suffix : List Exits} (hsuffix : suffix <:+ groups)
    (hne : suffix ≠ []) (h : (switchGroups suffix).Covers t o) :
    (switchGroups groups).Covers t o := by
  obtain ⟨before, rfl⟩ := hsuffix
  induction before with
  | nil => exact h
  | cons g before ih =>
      obtain ⟨next, rest, hcons⟩ : ∃ next rest, before ++ suffix = next :: rest :=
        List.exists_cons_of_ne_nil (by simp [hne])
      rw [hcons] at ih
      rw [List.cons_append, hcons, switchGroups_cons]
      exact covers_join.mpr (Or.inr ih)

lemma covers_switch {groups : List Exits} {hasDefault : Bool} {group : Exits} {rest : List Exits}
    (hsuffix : (group :: rest) <:+ groups) (h : (chained group rest).Covers t o) :
    (switch groups hasDefault).Covers t o.leaveSwitch :=
  covers_orStops <| covers_join.mpr <| Or.inr <|
    covers_switchGroups_of_suffix hsuffix (by simp) (covers_switchGroups h)

lemma covers_switch_normal {groups : List Exits} {hasDefault : Bool}
    (h : hasDefault = false ∨ groups = []) : (switch groups hasDefault).Covers t .normal := by
  refine covers_orStops (covers_join.mpr (Or.inl ?_))
  rcases h with rfl | rfl <;> simp [Covers]

/-! ### Guarded bodies -/

/-- The ways out of a guarded body and its clauses, before the final block. -/
def guardedKept (t : ClassTable) (body : Exits) (clauses : List Handler) : Exits :=
  clauses.foldl (fun s clause => s.join clause.body)
    { body with raises := uncaught t body.raises (clauses.flatMap Handler.types) }

lemma guarded_none (t : ClassTable) (body : Exits) (clauses : List Handler) :
    guarded t body clauses none = (guardedKept t body clauses).orStops := rfl

lemma guarded_some (t : ClassTable) (body : Exits) (clauses : List Handler) (last : Exits) :
    guarded t body clauses (some last) =
      if last.completes then
        ((guardedKept t body clauses).join { last with completes := false }).orStops
      else last := rfl

lemma covers_guardedKept {body : Exits} {clauses : List Handler} :
    (guardedKept t body clauses).Covers t o ↔
      Covers t { body with raises := uncaught t body.raises (clauses.flatMap Handler.types) } o ∨
        ∃ clause ∈ clauses, clause.body.Covers t o := by
  rw [guardedKept, ← List.foldl_map, covers_foldl_join]
  simp

/-- An outcome that no clause catches passes. If an exception is not caught, neither is the class
that the body declares for it, since an ancestor of the class is one of the exception. -/
lemma covers_of_escapes {body : Exits} {clauses : List Handler} (h : body.Covers t o)
    (ho : ∀ id, o = .raised id → ∀ clause ∈ clauses, ¬ Catches t clause.types id) :
    (guardedKept t body clauses).Covers t o := by
  refine covers_guardedKept.mpr (Or.inl ?_)
  cases o with
  | normal => exact h
  | broke level => exact h
  | continued level => exact h
  | stopped => exact h
  | raised id =>
      obtain ⟨c, hc, hid⟩ := h
      refine ⟨c, NatSet.mem_filter.mpr ⟨hc, ?_⟩, hid⟩
      rw [Bool.not_eq_true', List.any_eq_false]
      intro k hk hck
      obtain ⟨clause, hclause, hk⟩ := List.mem_flatMap.mp hk
      exact ho id rfl clause hclause ⟨k, hk, ClassTable.isSubclass_trans hid hck⟩

lemma covers_of_caught {body : Exits} {clauses : List Handler} {clause : Handler}
    (hclause : clause ∈ clauses) (h : clause.body.Covers t o) :
    (guardedKept t body clauses).Covers t o :=
  covers_guardedKept.mpr (Or.inr ⟨clause, hclause, h⟩)

/-- A final block that completes keeps what came before it. -/
lemma covers_guarded_some {body last : Exits} {clauses : List Handler}
    (hlast : last.Covers t .normal) (h : (guardedKept t body clauses).Covers t o) :
    (guarded t body clauses (some last)).Covers t o := by
  rw [guarded_some, if_pos (show last.completes = true from hlast)]
  exact covers_orStops (covers_join.mpr (Or.inl h))

/-- What leaves the final block leaves the statement. -/
lemma covers_guarded_last {body last : Exits} {clauses : List Handler} (h : last.Covers t o)
    (ho : o ≠ .normal) : (guarded t body clauses (some last)).Covers t o := by
  rw [guarded_some]
  split
  · exact covers_orStops (covers_join.mpr (Or.inr (covers_completes_false h ho)))
  · exact h

end Exits

/-! ### Soundness -/

namespace Skeleton

lemma exits_chain (t : ClassTable) (first : Skeleton) (rest : List Skeleton) :
    (chain first rest).exits t = Exits.chained (first.exits t) (exitsOf t rest) := by
  induction rest generalizing first with
  | nil => rw [chain, exitsOf, Exits.chained]
  | cons next rest ih => rw [chain, exits, ih, exitsOf, Exits.chained]

lemma handler_mem {t : ClassTable} {clauses : List (List ClassId × Skeleton)}
    {clause : List ClassId × Skeleton} (h : clause ∈ clauses) :
    ⟨clause.1, clause.2.exits t⟩ ∈ handlersOf t clauses := by
  rw [handlersOf_eq_map]
  exact List.mem_map_of_mem h

lemma escapes_handlers {t : ClassTable} {clauses : List (List ClassId × Skeleton)} {o : Outcome}
    (h : Escapes t clauses o) (id : ClassId) (ho : o = .raised id) (clause : Handler)
    (hclause : clause ∈ handlersOf t clauses) : ¬ Catches t clause.types id := by
  rw [handlersOf_eq_map] at hclause
  obtain ⟨c, hc, rfl⟩ := List.mem_map.mp hclause
  exact h id ho c hc

end Skeleton

/-- **Soundness of the exits**: every outcome in which a finite run of a statement can end is
covered by the exits computed for the statement. -/
theorem ends_covered (t : ClassTable) (statement : Skeleton) (o : Outcome)
    (h : Ends t statement o) : (statement.exits t).Covers t o := by
  -- over the run; the loop rules carry the induction over the rounds
  induction h with
  | leaf h => rwa [Skeleton.exits]
  | seqLeaves _ ho ih => rw [Skeleton.exits]; exact Exits.covers_andThen_of_ne ih ho
  | seqPasses _ _ iha ihb => rw [Skeleton.exits]; exact Exits.covers_andThen iha ihb
  | branch hb _ ih =>
      rw [Skeleton.exits, Skeleton.exitsOf_eq_map]
      exact Exits.covers_oneOf (List.mem_map_of_mem hb) ih
  | loopTestFails hc => rw [Skeleton.exits]; exact Exits.covers_loop_normal hc
  | loopLeaves _ ho ih => rw [Skeleton.exits]; exact Exits.covers_loop ih ho
  | loopRepeats _ _ _ _ ih => exact ih
  | doTestFails _ ho hc ih => rw [Skeleton.exits]; exact Exits.covers_doWhile_normal ih ho hc
  | doLeaves _ ho ih => rw [Skeleton.exits]; exact Exits.covers_doWhile ih ho
  | doRepeats _ _ _ _ ih => exact ih
  | switchPasses hp =>
      rw [Skeleton.exits, Skeleton.exitsOf_eq_map]
      exact Exits.covers_switch_normal (hp.imp_right fun h => by rw [h, List.map_nil])
  | switchEnters hsuffix _ ih =>
      rw [Skeleton.exits_chain] at ih
      rw [Skeleton.exits]
      refine Exits.covers_switch ?_ ih
      obtain ⟨before, rfl⟩ := hsuffix
      simp only [Skeleton.exitsOf_eq_map, List.map_append, List.map_cons]
      exact ⟨_, rfl⟩
  | uncaught _ hesc ih =>
      rw [Skeleton.exits, Skeleton.lastExits, Exits.guarded_none]
      exact Exits.covers_orStops (Exits.covers_of_escapes ih (Skeleton.escapes_handlers hesc))
  | caught _ hclause _ _ _ ih =>
      rw [Skeleton.exits, Skeleton.lastExits, Exits.guarded_none]
      exact Exits.covers_orStops (Exits.covers_of_caught (Skeleton.handler_mem hclause) ih)
  | uncaughtThen _ hesc _ ih ihlast =>
      rw [Skeleton.exits, Skeleton.lastExits]
      exact Exits.covers_guarded_some ihlast
        (Exits.covers_of_escapes ih (Skeleton.escapes_handlers hesc))
  | caughtThen _ hclause _ _ _ _ ih ihlast =>
      rw [Skeleton.exits, Skeleton.lastExits]
      exact Exits.covers_guarded_some ihlast
        (Exits.covers_of_caught (Skeleton.handler_mem hclause) ih)
  | lastDecides _ _ ho _ ihlast =>
      rw [Skeleton.exits, Skeleton.lastExits]
      exact Exits.covers_guarded_last ihlast ho

/-- A table of two classes, of which the second extends the first. -/
def twoClasses : ClassTable where
  defs := [{ name := "Failure", position := ⟨0, "shell"⟩ },
    { name := "Timeout", superclass := some 0, position := ⟨0, "shell"⟩ }]

/-- A body that raises an exception, and a clause that catches it by its superclass and then breaks
out of two constructs. -/
def caughtBreak : Skeleton :=
  .guarded (.leaf (Exits.stopping.alsoRaising (NatSet.ofList [1]))) [([0], .leaf (.breaking 2))]
    none

/-- An endless loop is left by the break out of the switch inside it. -/
theorem ends_covered_caughtBreak :
    Ends twoClasses (.loop (some true) (.switch [caughtBreak] true)) .normal ∧
      ((Skeleton.loop (some true) (.switch [caughtBreak] true)).exits twoClasses).Covers
        twoClasses .normal := by
  have hbody : Ends twoClasses (.leaf (Exits.stopping.alsoRaising (NatSet.ofList [1])))
      (.raised 1) := .leaf ⟨1, by decide, by decide⟩
  have hgroup : Ends twoClasses caughtBreak (.broke 2) :=
    .caught hbody (List.mem_singleton.mpr rfl) ⟨0, by simp, by decide⟩
      (.leaf ⟨by decide, by decide⟩)
  have hrun : Ends twoClasses (.loop (some true) (.switch [caughtBreak] true)) .normal :=
    .loopLeaves (.switchEnters List.suffix_rfl hgroup) rfl
  exact ⟨hrun, ends_covered twoClasses _ .normal hrun⟩

end ScriptCheck
