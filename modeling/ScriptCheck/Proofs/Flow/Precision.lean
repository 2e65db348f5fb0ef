import ScriptCheck.Proofs.Flow.Soundness

/-!
The exits of a statement without guarded bodies name nothing that does not happen.

Coverage and runs satisfy the same equations. For every compound statement there is one that says
what its exits cover, given what those of its parts cover (`covers_andThen_iff`, `covers_oneOf_iff`,
`covers_loop_iff`, `covers_doWhile_iff`, `covers_switch_iff`), and one that says how its runs end,
given how runs of its parts end (`ends_seq_iff`, `ends_branch_iff`, `ends_loop_iff`,
`ends_doWhile_iff`, `ends_switch_iff`). Further rounds of a loop add no outcome, so that in the
equations for loops there is only one.

The exception is stopping. A statement that nothing leaves counts as stopping, though its runs do
not end at all. What such a statement makes of the statements around it is again only that they
stop, so the equations hold for every other outcome. `exits_attained` is then one induction over the
statement.
-/

namespace ScriptCheck

namespace Outcome

lemma ne_stopped_of_leaveLoop {o o' : Outcome} (h : o.leaveLoop = some o') (ho' : o' ≠ .stopped) :
    o ≠ .stopped := by
  rintro rfl
  exact ho' (Option.some.inj h).symm

lemma ne_stopped_of_leaveLoop_eq_none {o : Outcome} (h : o.leaveLoop = none) : o ≠ .stopped := by
  rintro rfl
  cases h

lemma ne_stopped_of_leaveSwitch {o o' : Outcome} (h : o.leaveSwitch = o') (ho' : o' ≠ .stopped) :
    o ≠ .stopped := by
  rintro rfl
  exact ho' h.symm

/-- A jump that leaves one more construct than the loop ends outside with a level less. -/
lemma leaveLoop_broke_succ {k : Nat} (hk : 1 ≤ k) : (broke (k + 1)).leaveLoop = some (broke k) := by
  rw [leaveLoop, if_neg (by omega), Nat.add_sub_cancel]

lemma leaveLoop_continued_succ {k : Nat} (hk : 1 ≤ k) :
    (continued (k + 1)).leaveLoop = some (continued k) := by
  rw [leaveLoop, if_neg (by omega), Nat.add_sub_cancel]

lemma leaveSwitch_broke_succ {k : Nat} (hk : 1 ≤ k) : (broke (k + 1)).leaveSwitch = broke k := by
  rw [leaveSwitch, if_neg (by omega), Nat.add_sub_cancel]

lemma leaveSwitch_continued_succ {k : Nat} (hk : 1 ≤ k) :
    (continued (k + 1)).leaveSwitch = continued k := by
  rw [leaveSwitch, if_neg (by omega), Nat.add_sub_cancel]

end Outcome

/-! ### What compound exits cover -/

namespace Exits

variable {t : ClassTable} {a b s body : Exits} {o o' : Outcome} {condition : Option Bool}

/-- Counting a statement that nothing leaves as stopping adds no other outcome. -/
lemma covers_orStops_iff (ho : o ≠ .stopped) : s.orStops.Covers t o ↔ s.Covers t o := by
  refine ⟨fun h => ?_, covers_orStops⟩
  rw [orStops] at h
  split at h
  · exact h
  · cases o with
    | stopped => exact absurd rfl ho
    | normal => exact h
    | broke level => exact h
    | continued level => exact h
    | raised id => exact h

lemma not_covers_empty : ¬ Covers t {} o := by
  cases o <;> simp [Covers]

lemma covers_oneOf_iff {l : List Exits} (ho : o ≠ .stopped) :
    (oneOf l).Covers t o ↔ ∃ b ∈ l, b.Covers t o := by
  rw [oneOf, covers_orStops_iff ho, covers_foldl_join, or_iff_right not_covers_empty]

lemma covers_andThen_iff : (a.andThen b).Covers t o ↔
    (a.Covers t o ∧ o ≠ .normal) ∨ (a.Covers t .normal ∧ b.Covers t o) := by
  refine ⟨covers_of_andThen, ?_⟩
  rintro (⟨h, ho⟩ | ⟨ha, h⟩)
  · exact covers_andThen_of_ne h ho
  · exact covers_andThen ha h

/-- What a loop covers is its completion or an outcome of the body that leaves the loop. -/
lemma exists_leaveLoop {completes : Bool}
    (h : Covers t
      { completes := completes
        stops := body.stops
        breaks := outerLevels body.breaks
        continues := outerLevels body.continues
        raises := body.raises } o') :
    (o' = .normal ∧ completes = true) ∨ ∃ o, body.Covers t o ∧ o.leaveLoop = some o' := by
  cases o' with
  | normal => exact .inl ⟨rfl, h⟩
  | broke level =>
      obtain ⟨hle, hmem⟩ := h
      obtain ⟨-, hmem⟩ := mem_outerLevels.mp hmem
      exact .inr ⟨.broke (level + 1), ⟨by omega, hmem⟩, Outcome.leaveLoop_broke_succ hle⟩
  | continued level =>
      obtain ⟨hle, hmem⟩ := h
      obtain ⟨-, hmem⟩ := mem_outerLevels.mp hmem
      exact .inr ⟨.continued (level + 1), ⟨by omega, hmem⟩, Outcome.leaveLoop_continued_succ hle⟩
  | stopped => exact .inr ⟨.stopped, h, rfl⟩
  | raised id => exact .inr ⟨.raised id, h, rfl⟩

lemma covers_broke_of_mayBreak (h : body.mayBreak = true) : body.Covers t (.broke 1) :=
  ⟨le_refl 1, by simpa [mayBreak] using h⟩

lemma covers_continued_of_mayContinue (h : body.mayContinue = true) :
    body.Covers t (.continued 1) :=
  ⟨le_refl 1, by simpa [mayContinue] using h⟩

lemma covers_loop_iff (ho : o' ≠ .stopped) : (body.loop condition).Covers t o' ↔
    (condition ≠ some true ∧ o' = .normal) ∨ ∃ o, body.Covers t o ∧ o.leaveLoop = some o' := by
  constructor
  · intro h
    rw [loop, covers_orStops_iff ho] at h
    rcases exists_leaveLoop h with ⟨rfl, hcompletes⟩ | h
    · rcases (Bool.or_eq_true _ _).mp hcompletes with hc | hbreak
      · exact .inl ⟨by simpa using hc, rfl⟩
      · exact .inr ⟨.broke 1, covers_broke_of_mayBreak hbreak, rfl⟩
    · exact .inr h
  · rintro (⟨hc, rfl⟩ | ⟨o, h, hleave⟩)
    · exact covers_loop_normal hc
    · exact covers_loop h hleave

lemma covers_doWhile_iff (ho : o' ≠ .stopped) : (body.doWhile condition).Covers t o' ↔
    ((∃ o, body.Covers t o ∧ o.leaveLoop = none) ∧ condition ≠ some true ∧ o' = .normal) ∨
      ∃ o, body.Covers t o ∧ o.leaveLoop = some o' := by
  constructor
  · intro h
    rw [doWhile, covers_orStops_iff ho] at h
    rcases exists_leaveLoop h with ⟨rfl, hcompletes⟩ | h
    · rcases (Bool.or_eq_true _ _).mp hcompletes with htest | hbreak
      · obtain ⟨hreached, hc⟩ := (Bool.and_eq_true _ _).mp htest
        refine .inl ⟨?_, by simpa using hc, rfl⟩
        -- the test is reached from a body that completes or continues
        rcases (Bool.or_eq_true _ _).mp hreached with hpass | hcontinue
        · exact ⟨.normal, hpass, rfl⟩
        · exact ⟨.continued 1, covers_continued_of_mayContinue hcontinue, rfl⟩
      · exact .inr ⟨.broke 1, covers_broke_of_mayBreak hbreak, rfl⟩
    · exact .inr h
  · rintro (⟨⟨o, h, hnone⟩, hc, rfl⟩ | ⟨o, h, hleave⟩)
    · exact covers_doWhile_normal h hnone hc
    · exact covers_doWhile h hleave

/-- What one group of a switch contributes is an outcome of the group, and its completion only if
it is the last one. -/
lemma exists_leaveSwitch {isLast : Bool} (h : (s.switchGroup isLast).Covers t o') :
    ∃ o, s.Covers t o ∧ o.leaveSwitch = o' ∧ (o = .normal → isLast = true) := by
  cases o' with
  | normal =>
      rcases (Bool.or_eq_true _ _).mp h with hbreak | hend
      · exact ⟨.broke 1, covers_broke_of_mayBreak hbreak, rfl, by simp⟩
      · obtain ⟨hlast, hpass⟩ := (Bool.and_eq_true _ _).mp hend
        exact ⟨.normal, hpass, rfl, fun _ => hlast⟩
  | broke level =>
      obtain ⟨hle, hmem⟩ := h
      obtain ⟨-, hmem⟩ := mem_outerLevels.mp hmem
      exact ⟨.broke (level + 1), ⟨by omega, hmem⟩, Outcome.leaveSwitch_broke_succ hle, by simp⟩
  | continued level =>
      obtain ⟨hle, hmem⟩ := h
      rcases NatSet.mem_union.mp hmem with hplain | hfar
      · obtain ⟨hmem, hone⟩ := NatSet.mem_filter.mp hplain
        obtain rfl : level = 1 := by simpa using hone
        exact ⟨.continued 1, ⟨hle, hmem⟩, rfl, by simp⟩
      · obtain ⟨-, hmem⟩ := mem_outerLevels.mp hfar
        exact ⟨.continued (level + 1), ⟨by omega, hmem⟩, Outcome.leaveSwitch_continued_succ hle,
          by simp⟩
  | stopped => exact ⟨.stopped, h, rfl, by simp⟩
  | raised id => exact ⟨.raised id, h, rfl, by simp⟩

/-- What leaves a group leaves the groups that start with it. -/
lemma covers_chained {rest : List Exits} (h : s.Covers t o) (ho : o = .normal → rest = []) :
    (chained s rest).Covers t o := by
  cases rest with
  | nil => exact h
  | cons next rest =>
      exact covers_andThen_of_ne h fun hn => absurd (ho hn) (List.cons_ne_nil _ _)

/-- Whatever the groups of a switch cover comes from a run that enters at one of them. -/
lemma exists_chained {groups : List Exits} (h : (switchGroups groups).Covers t o') :
    ∃ group rest, (group :: rest) <:+ groups ∧
      ∃ o, (chained group rest).Covers t o ∧ o.leaveSwitch = o' := by
  induction groups with
  | nil => exact absurd h not_covers_empty
  | cons group groups ih =>
      cases groups with
      | nil =>
          obtain ⟨o, ho, hleave, -⟩ := exists_leaveSwitch h
          exact ⟨group, [], List.suffix_rfl, o, ho, hleave⟩
      | cons next rest =>
          rw [switchGroups_cons] at h
          rcases covers_join.mp h with h | h
          · obtain ⟨o, ho, hleave, hlast⟩ := exists_leaveSwitch h
            have hne : o ≠ .normal := fun hn => Bool.false_ne_true (hlast hn)
            exact ⟨group, next :: rest, List.suffix_rfl, o,
              covers_chained ho fun hn => absurd hn hne, hleave⟩
          · obtain ⟨g, r, hsuffix, hrun⟩ := ih h
            exact ⟨g, r, hsuffix.trans (List.suffix_cons _ _), hrun⟩

lemma covers_switch_iff {groups : List Exits} {hasDefault : Bool} (ho : o' ≠ .stopped) :
    (switch groups hasDefault).Covers t o' ↔
      ((hasDefault = false ∨ groups = []) ∧ o' = .normal) ∨
        ∃ group rest, (group :: rest) <:+ groups ∧
          ∃ o, (chained group rest).Covers t o ∧ o.leaveSwitch = o' := by
  constructor
  · intro h
    rw [switch, covers_orStops_iff ho, covers_join] at h
    rcases h with hpass | h
    · -- passing by is completing
      cases o' with
      | normal =>
          refine .inl ⟨?_, rfl⟩
          simpa [Covers] using hpass
      | stopped => exact absurd rfl ho
      | broke level => simp [Covers] at hpass
      | continued level => simp [Covers] at hpass
      | raised id => simp [Covers] at hpass
    · exact .inr (exists_chained h)
  · rintro (⟨hpass, rfl⟩ | ⟨group, rest, hsuffix, o, h, rfl⟩)
    · exact covers_switch_normal hpass
    · exact covers_switch hsuffix h

end Exits

/-! ### How runs of compound statements end -/

section Runs

variable {t : ClassTable} {a b body : Skeleton} {o : Outcome} {condition : Option Bool}

lemma ends_seq_iff : Ends t (.seq a b) o ↔
    (Ends t a o ∧ o ≠ .normal) ∨ (Ends t a .normal ∧ Ends t b o) := by
  constructor
  · intro h
    cases h with
    | seqLeaves h ho => exact .inl ⟨h, ho⟩
    | seqPasses ha hb => exact .inr ⟨ha, hb⟩
  · rintro (⟨h, ho⟩ | ⟨ha, hb⟩)
    · exact .seqLeaves h ho
    · exact .seqPasses ha hb

lemma ends_branch_iff {branches : List Skeleton} :
    Ends t (.branch branches) o ↔ ∃ b ∈ branches, Ends t b o := by
  constructor
  · intro h
    cases h with
    | branch hb h => exact ⟨_, hb, h⟩
  · rintro ⟨b, hb, h⟩
    exact .branch hb h

/-- A loop ends at its test or in the round that leaves it; the rounds before do not matter. -/
lemma ends_loop_iff : Ends t (.loop condition body) o ↔
    (condition ≠ some true ∧ o = .normal) ∨ ∃ o₁, Ends t body o₁ ∧ o₁.leaveLoop = some o := by
  constructor
  · intro h
    -- over the rounds
    generalize hloop : Skeleton.loop condition body = statement at h
    induction h with
    | loopTestFails hc =>
        cases hloop
        exact .inl ⟨hc, rfl⟩
    | loopLeaves h hleave =>
        cases hloop
        exact .inr ⟨_, h, hleave⟩
    | loopRepeats _ _ _ _ ih => exact ih hloop
    | _ => cases hloop
  · rintro (⟨hc, rfl⟩ | ⟨o₁, h, hleave⟩)
    · exact .loopTestFails hc
    · exact .loopLeaves h hleave

lemma ends_doWhile_iff : Ends t (.doWhile condition body) o ↔
    ((∃ o₁, Ends t body o₁ ∧ o₁.leaveLoop = none) ∧ condition ≠ some true ∧ o = .normal) ∨
      ∃ o₁, Ends t body o₁ ∧ o₁.leaveLoop = some o := by
  constructor
  · intro h
    generalize hloop : Skeleton.doWhile condition body = statement at h
    induction h with
    | doTestFails h hnone hc =>
        cases hloop
        exact .inl ⟨⟨_, h, hnone⟩, hc, rfl⟩
    | doLeaves h hleave =>
        cases hloop
        exact .inr ⟨_, h, hleave⟩
    | doRepeats _ _ _ _ ih => exact ih hloop
    | _ => cases hloop
  · rintro (⟨⟨o₁, h, hnone⟩, hc, rfl⟩ | ⟨o₁, h, hleave⟩)
    · exact .doTestFails h hnone hc
    · exact .doLeaves h hleave

lemma ends_switch_iff {groups : List Skeleton} {hasDefault : Bool} :
    Ends t (.switch groups hasDefault) o ↔
      ((hasDefault = false ∨ groups = []) ∧ o = .normal) ∨
        ∃ group rest, (group :: rest) <:+ groups ∧
          ∃ o₁, Ends t (.chain group rest) o₁ ∧ o₁.leaveSwitch = o := by
  constructor
  · intro h
    cases h with
    | switchPasses hpass => exact .inl ⟨hpass, rfl⟩
    | switchEnters hsuffix h => exact .inr ⟨_, _, hsuffix, _, h, rfl⟩
  · rintro (⟨hpass, rfl⟩ | ⟨group, rest, hsuffix, o₁, h, rfl⟩)
    · exact .switchPasses hpass
    · exact .switchEnters hsuffix h

end Runs

/-! ### Exact exits -/

namespace Skeleton

/-- A statement without guarded bodies. The body of a loop whose condition is known to fail is never
run, and such a loop is no statement of this kind. -/
inductive Unguarded : Skeleton → Prop
  | leaf (s : Exits) : Unguarded (.leaf s)
  | seq {a b : Skeleton} : Unguarded a → Unguarded b → Unguarded (.seq a b)
  | branch {branches : List Skeleton} : (∀ b ∈ branches, Unguarded b) → Unguarded (.branch branches)
  | loop {condition : Option Bool} {body : Skeleton} :
      condition ≠ some false → Unguarded body → Unguarded (.loop condition body)
  | doWhile {condition : Option Bool} {body : Skeleton} :
      Unguarded body → Unguarded (.doWhile condition body)
  | switch {groups : List Skeleton} {hasDefault : Bool} :
      (∀ g ∈ groups, Unguarded g) → Unguarded (.switch groups hasDefault)

/-- Apart from stopping, the exits cover exactly the outcomes of the runs. -/
def HasExactExits (t : ClassTable) (s : Skeleton) : Prop :=
  ∀ o, o ≠ .stopped → ((s.exits t).Covers t o ↔ Ends t s o)

namespace HasExactExits

variable {t : ClassTable} {a b body : Skeleton}

lemma leaf (s : Exits) : HasExactExits t (.leaf s) := by
  intro o _
  rw [exits]
  constructor
  · exact .leaf
  · intro h
    cases h with
    | leaf h => exact h

lemma seq (ha : a.HasExactExits t) (hb : b.HasExactExits t) : (a.seq b).HasExactExits t := by
  intro o ho
  rw [exits, Exits.covers_andThen_iff, ends_seq_iff, ha o ho, hb o ho, ha .normal (by simp)]

lemma branch {branches : List Skeleton} (h : ∀ b ∈ branches, b.HasExactExits t) :
    (Skeleton.branch branches).HasExactExits t := by
  intro o ho
  rw [exits, Exits.covers_oneOf_iff ho, ends_branch_iff, exitsOf_eq_map]
  simp only [List.mem_map, exists_exists_and_eq_and]
  exact exists_congr fun b => and_congr_right fun hb => h b hb o ho

lemma loop (h : body.HasExactExits t) (condition : Option Bool) :
    (Skeleton.loop condition body).HasExactExits t := by
  intro o ho
  rw [exits, Exits.covers_loop_iff ho, ends_loop_iff]
  refine or_congr_right (exists_congr fun o₁ => and_congr_left fun hleave => ?_)
  exact h o₁ (Outcome.ne_stopped_of_leaveLoop hleave ho)

lemma doWhile (h : body.HasExactExits t) (condition : Option Bool) :
    (Skeleton.doWhile condition body).HasExactExits t := by
  intro o ho
  rw [exits, Exits.covers_doWhile_iff ho, ends_doWhile_iff]
  refine or_congr (and_congr_left fun _ => exists_congr fun o₁ => and_congr_left fun hnone => ?_)
    (exists_congr fun o₁ => and_congr_left fun hleave => ?_)
  · exact h o₁ (Outcome.ne_stopped_of_leaveLoop_eq_none hnone)
  · exact h o₁ (Outcome.ne_stopped_of_leaveLoop hleave ho)

/-- Groups that run into one another. -/
lemma chain {group : Skeleton} {rest : List Skeleton}
    (h : ∀ g ∈ group :: rest, g.HasExactExits t) : (chain group rest).HasExactExits t := by
  induction rest generalizing group with
  | nil => exact h group (by simp)
  | cons next rest ih =>
      rw [List.forall_mem_cons] at h
      exact h.1.seq (ih h.2)

lemma switch {groups : List Skeleton} (h : ∀ g ∈ groups, g.HasExactExits t) (hasDefault : Bool) :
    (Skeleton.switch groups hasDefault).HasExactExits t := by
  intro o ho
  have hchain : ∀ {group : Skeleton} {rest : List Skeleton}, (group :: rest) <:+ groups →
      (Skeleton.chain group rest).HasExactExits t := fun hsuffix =>
    chain fun g hg => h g (hsuffix.subset hg)
  rw [exits, Exits.covers_switch_iff ho, ends_switch_iff, exitsOf_eq_map, List.map_eq_nil_iff]
  refine or_congr_right ⟨?_, ?_⟩
  · -- the exits of the groups from some group on are those of the groups from there
    rintro ⟨_, _, hmapped, o₁, hcovers, hleave⟩
    obtain ⟨_, hsuffix, hmap⟩ := List.suffix_map_iff.mp hmapped
    obtain ⟨group, rest, rfl, rfl, rfl⟩ := List.map_eq_cons_iff.mp hmap.symm
    rw [← exitsOf_eq_map, ← exits_chain] at hcovers
    refine ⟨group, rest, hsuffix, o₁, ?_, hleave⟩
    exact (hchain hsuffix o₁ (Outcome.ne_stopped_of_leaveSwitch hleave ho)).mp hcovers
  · rintro ⟨group, rest, hsuffix, o₁, hends, hleave⟩
    refine ⟨group.exits t, rest.map (exits t), hsuffix.map _, o₁, ?_, hleave⟩
    rw [← exitsOf_eq_map, ← exits_chain]
    exact (hchain hsuffix o₁ (Outcome.ne_stopped_of_leaveSwitch hleave ho)).mpr hends

end HasExactExits

lemma Unguarded.hasExactExits {s : Skeleton} (h : s.Unguarded) (t : ClassTable) :
    s.HasExactExits t := by
  induction h with
  | leaf s => exact .leaf s
  | seq _ _ iha ihb => exact iha.seq ihb
  | branch _ ih => exact .branch ih
  | loop _ _ ih => exact ih.loop _
  | doWhile _ ih => exact ih.doWhile _
  | switch _ ih => exact .switch ih _

end Skeleton

/-- **The exits of an unguarded statement are attained.** Completing, each break and each continue of
the computed exits is the outcome of a finite run, and so is each exception; in particular the
statement is found to complete exactly if some run of it completes. Only stopping may be named
without such a run. -/
theorem exits_attained (t : ClassTable) (statement : Skeleton) (h : statement.Unguarded) :
    (∀ o, o ≠ .stopped → ((statement.exits t).Covers t o ↔ Ends t statement o)) ∧
      ∀ c ∈ (statement.exits t).raises, Ends t statement (.raised c) := by
  have hexact := h.hasExactExits t
  refine ⟨hexact, fun c hc => ?_⟩
  exact (hexact (.raised c) (by simp)).mp ⟨c, hc, ClassTable.isSubclass_refl t c⟩

/-- An endless loop around a switch. Its first group breaks out of three constructs or raises an
exception; the second is an endless loop of its own, which nothing leaves. -/
def endlessSwitch : Skeleton :=
  .loop (some true) (.switch
    [.leaf ((Exits.breaking 3).alsoRaising (NatSet.ofList [1])),
      .doWhile (some true) (.leaf .passing)] true)

/-- The break and the exception come out of the loop, which counts as stopping too but does not
complete. -/
theorem exits_attained_endlessSwitch :
    endlessSwitch.Unguarded ∧ (endlessSwitch.exits twoClasses).stops = true ∧
      Ends twoClasses endlessSwitch (.broke 1) ∧ Ends twoClasses endlessSwitch (.raised 1) ∧
      ¬ Ends twoClasses endlessSwitch .normal := by
  have hplain : endlessSwitch.Unguarded := by
    refine .loop (by decide) (.switch ?_)
    rw [List.forall_mem_cons, List.forall_mem_singleton]
    exact ⟨.leaf _, .doWhile (.leaf _)⟩
  obtain ⟨hexact, hraised⟩ := exits_attained twoClasses endlessSwitch hplain
  refine ⟨hplain, by decide, (hexact _ (by simp)).mp ⟨le_refl 1, by decide⟩, hraised 1 (by decide),
    fun h => ?_⟩
  exact absurd ((hexact _ (by simp)).mpr h) (by simp only [Exits.Covers]; decide)

end ScriptCheck
