import ScriptCheck.Proofs.Flow.Confined

/-!
Levels of jumps and the nesting around a statement.

Inside `depth` loops and switches a jump leaves at most so many of them. `Exits.InRange` says so of
the levels of some exits; a jump of level one counts as in range everywhere, since outside of any
construct it is reported and kept. Being in range is one way of being confined, so each operation on
exits keeps the levels in range; those of a loop or switch take a body that is one construct deeper
(`fits_loop`, `fits_switch`), and take exactly one off the level of a jump that goes on
(`outerLevels_exact`).

`Exits.Fits` adds that there is a way out at all. An operation that could leave none counts as
stopping.
-/

namespace ScriptCheck

namespace Exits

variable {depth : Nat} {a b s body : Exits} {l : List Exits}

/-- Every jump leaves at least one construct, and no more than there are. -/
structure InRange (depth : Nat) (s : Exits) : Prop where
  breaks : ∀ level ∈ s.breaks, 1 ≤ level ∧ level ≤ max depth 1
  continues : ∀ level ∈ s.continues, 1 ≤ level ∧ level ≤ max depth 1

/-- A jump of the level leaves at least one construct, and no more than there are. -/
def IsLevel (depth level : Nat) : Prop := 1 ≤ level ∧ level ≤ max depth 1

lemma InRange.confined (h : s.InRange depth) : s.Confined (IsLevel depth) (IsLevel depth) :=
  ⟨h.breaks, h.continues⟩

lemma Confined.inRange (h : s.Confined (IsLevel depth) (IsLevel depth)) : s.InRange depth :=
  ⟨h.breaks, h.continues⟩

/-- There is a way out. -/
def IsLeft (s : Exits) : Prop :=
  s.completes = true ∨ s.stops = true ∨ (∃ level, level ∈ s.breaks) ∨
    ∃ level, level ∈ s.continues

/-- There is a way out, and every jump stays within the nesting. -/
structure Fits (depth : Nat) (s : Exits) : Prop extends InRange depth s where
  isLeft : s.IsLeft

/-- The levels of the jumps that leave more than one construct. -/
def jumps (s : Exits) : List Nat := s.farBreaks ++ s.farContinues

lemma mem_jumps {level : Nat} :
    level ∈ s.jumps ↔ (level ∈ s.breaks ∨ level ∈ s.continues) ∧ 2 ≤ level := by
  simp only [jumps, farBreaks, farContinues, List.mem_append, List.mem_filter, decide_eq_true_eq,
    ← NatSet.mem_def, or_and_right]

lemma InRange.le_of_mem_jumps (h : s.InRange depth) {level : Nat} (hlevel : level ∈ s.jumps) :
    2 ≤ level ∧ level ≤ depth := by
  obtain ⟨hmem, htwo⟩ := mem_jumps.mp hlevel
  have hle := (hmem.elim (h.breaks level) (h.continues level)).2
  omega

lemma InRange.jumps_eq_nil (h : s.InRange depth) (hdepth : depth ≤ 1) : s.jumps = [] := by
  rw [List.eq_nil_iff_forall_not_mem]
  intro level hlevel
  have hrange := h.le_of_mem_jumps hlevel
  omega

lemma InRange.one_or_mem_jumps (h : s.InRange depth) {level : Nat}
    (hlevel : level ∈ s.breaks ∨ level ∈ s.continues) : level = 1 ∨ level ∈ s.jumps := by
  have hpos := (hlevel.elim (h.breaks level) (h.continues level)).1
  by_cases hone : level = 1
  · exact Or.inl hone
  · exact Or.inr (mem_jumps.mpr ⟨hlevel, by omega⟩)

/-- A way out is control that goes on or stops, a plain jump, or one that leaves more than one
construct. -/
lemma Fits.flag_or_jump (h : s.Fits depth) :
    s.completes = true ∨ s.stops = true ∨ s.mayBreak = true ∨ s.mayContinue = true ∨
      s.jumps ≠ [] := by
  rcases h.isLeft with hflag | hflag | ⟨level, hmem⟩ | ⟨level, hmem⟩
  · exact Or.inl hflag
  · exact Or.inr (Or.inl hflag)
  · rcases h.one_or_mem_jumps (Or.inl hmem) with rfl | hfar
    · exact Or.inr (Or.inr (Or.inl (decide_eq_true hmem)))
    · exact Or.inr (Or.inr (Or.inr (Or.inr (List.ne_nil_of_mem hfar))))
  · rcases h.one_or_mem_jumps (Or.inr hmem) with rfl | hfar
    · exact Or.inr (Or.inr (Or.inr (Or.inl (decide_eq_true hmem))))
    · exact Or.inr (Or.inr (Or.inr (Or.inr (List.ne_nil_of_mem hfar))))

/-! ### Single statements -/

lemma fits_passing : passing.Fits depth where
  breaks := by simp [passing]
  continues := by simp [passing]
  isLeft := Or.inl rfl

lemma fits_stopping : stopping.Fits depth where
  breaks := by simp [stopping]
  continues := by simp [stopping]
  isLeft := Or.inr (Or.inl rfl)

/-- A jump is cut down to the nesting before its exits are made. -/
lemma fits_breaking {level : Nat} (h : level ≤ max depth 1) : (breaking level).Fits depth where
  breaks := by
    intro k hk
    simp only [breaking, NatSet.mem_ofList, List.mem_singleton] at hk
    omega
  continues := by simp [breaking]
  isLeft := Or.inr (Or.inr (Or.inl ⟨max level 1, by simp [breaking]⟩))

lemma fits_continuing {level : Nat} (h : level ≤ max depth 1) :
    (continuing level).Fits depth where
  breaks := by simp [continuing]
  continues := by
    intro k hk
    simp only [continuing, NatSet.mem_ofList, List.mem_singleton] at hk
    omega
  isLeft := Or.inr (Or.inr (Or.inr ⟨max level 1, by simp [continuing]⟩))

/-- Exceptions are no jumps. -/
lemma Fits.alsoRaising (h : s.Fits depth) (classes : NatSet) :
    (s.alsoRaising classes).Fits depth :=
  ⟨⟨h.breaks, h.continues⟩, h.isLeft⟩

/-! ### Sequences and branches -/

lemma IsLeft.join_right (h : b.IsLeft) : (a.join b).IsLeft := by
  rcases h with h | h | ⟨level, h⟩ | ⟨level, h⟩
  · exact Or.inl (by simp [join, h])
  · exact Or.inr (Or.inl (by simp [join, h]))
  · exact Or.inr (Or.inr (Or.inl ⟨level, NatSet.mem_union.mpr (Or.inr h)⟩))
  · exact Or.inr (Or.inr (Or.inr ⟨level, NatSet.mem_union.mpr (Or.inr h)⟩))

lemma Fits.andThen (ha : a.Fits depth) (hb : b.Fits depth) : (a.andThen b).Fits depth := by
  refine ⟨(ha.confined.andThen hb.confined).inRange, ?_⟩
  rw [Exits.andThen]
  split
  · exact hb.isLeft.join_right
  · exact ha.isLeft

/-- What nothing leaves counts as stopping. -/
lemma isLeft_orStops (s : Exits) : s.orStops.IsLeft := by
  rw [Exits.orStops]
  split
  case isTrue hleft =>
      simp only [Bool.or_eq_true, Bool.not_eq_true', ← Bool.not_eq_true, NatSet.isEmpty_iff,
        not_forall, not_not, or_assoc] at hleft
      exact hleft
  case isFalse => exact Or.inr (Or.inl rfl)

lemma fits_oneOf (h : ∀ b ∈ l, b.InRange depth) : (oneOf l).Fits depth :=
  ⟨(confined_oneOf fun b hb => (h b hb).confined).inRange, isLeft_orStops _⟩

/-! ### Loops and switches -/

/-- Seen from outside a construct a jump leaves one construct less; one that leaves a single
construct is none from there. -/
lemma IsLevel.outside (level : Nat) (hpos : 1 ≤ level) (h : IsLevel (depth + 1) (level + 1)) :
    IsLevel depth level := by
  have hle := h.2
  exact ⟨hpos, by omega⟩

/-- Nothing is lost where one is taken off a level: a jump that goes on past the construct around it
leaves exactly one construct less from there. -/
lemma outerLevels_exact {levels : NatSet}
    (h : ∀ level ∈ levels, 1 ≤ level ∧ level ≤ max depth 1) :
    (∀ level ∈ levels, 2 < level → 2 ≤ level - 1 ∧ level - 1 ∈ outerLevels levels) ∧
      ∀ outer ∈ outerLevels levels, 1 ≤ outer ∧ outer + 1 ∈ levels ∧ outer + 1 ≤ depth := by
  constructor
  · intro level hmem htwo
    have heq : level - 1 + 1 = level := by omega
    exact ⟨by omega, mem_outerLevels.mpr ⟨by omega, heq.symm ▸ hmem⟩⟩
  · intro outer houter
    obtain ⟨hpos, hmem⟩ := mem_outerLevels.mp houter
    have hle := (h (outer + 1) hmem).2
    exact ⟨hpos, hmem, by omega⟩

lemma fits_loop (h : body.InRange (depth + 1)) (condition : Option Bool) :
    (body.loop condition).Fits depth :=
  ⟨(confined_loop IsLevel.outside IsLevel.outside h.confined condition).inRange, isLeft_orStops _⟩

lemma fits_doWhile (h : body.InRange (depth + 1)) (condition : Option Bool) :
    (body.doWhile condition).Fits depth :=
  ⟨(confined_doWhile IsLevel.outside IsLevel.outside h.confined condition).inRange,
    isLeft_orStops _⟩

lemma fits_switch (h : ∀ b ∈ l, b.InRange (depth + 1)) (hasDefault : Bool) :
    (switch l hasDefault).Fits depth := by
  -- a plain continue passes through, at level one
  have hplain : IsLevel (depth + 1) 1 → IsLevel depth 1 := fun _ => ⟨le_rfl, le_max_right _ _⟩
  have hconfined := confined_switch IsLevel.outside IsLevel.outside hplain
    (fun b hb => (h b hb).confined) hasDefault
  exact ⟨hconfined.inRange, isLeft_orStops _⟩

/-! ### Exceptions -/

lemma fits_guarded {t : ClassTable} {clauses : List Handler} {last : Option Exits}
    (hbody : body.InRange depth) (hclauses : ∀ clause ∈ clauses, clause.body.InRange depth)
    (hlast : ∀ s, last = some s → s.Fits depth) :
    (guarded t body clauses last).Fits depth := by
  have hconfined := confined_guarded (t := t) hbody.confined
    (fun clause hclause => (hclauses clause hclause).confined) fun s hs => (hlast s hs).confined
  refine ⟨hconfined.inRange, ?_⟩
  cases last with
  | none =>
      rw [guarded_none]
      exact isLeft_orStops _
  | some s =>
      rw [guarded_some]
      split
      · exact isLeft_orStops _
      · exact (hlast s rfl).isLeft

end Exits

end ScriptCheck
