import ScriptCheck.Proofs.Flow.Soundness

/-!
Which jumps come out of a compound statement.

`Exits.Confined` says of the levels of the breaks and of the continues of some exits what they may
be. Sequences, branches and guarded bodies have the jumps of their parts. Loops and switches take one
off the levels; a loop stops the plain jumps, but out of a switch a plain continue comes as it is
(`confined_switch`).
-/

namespace ScriptCheck.Exits

/-- The levels of the breaks have one property, and those of the continues another. -/
structure Confined (B C : Nat → Prop) (s : Exits) : Prop where
  breaks : ∀ level ∈ s.breaks, B level
  continues : ∀ level ∈ s.continues, C level

variable {B C B' C' : Nat → Prop} {a b s body : Exits} {l : List Exits}

lemma confined_of_no_jumps (hbreaks : s.breaks = ∅) (hcontinues : s.continues = ∅) :
    s.Confined B C where
  breaks := by simp [hbreaks]
  continues := by simp [hcontinues]

lemma confined_passing : passing.Confined B C := confined_of_no_jumps rfl rfl

namespace Confined

lemma alsoRaising (h : s.Confined B C) (classes : NatSet) : (s.alsoRaising classes).Confined B C :=
  ⟨h.breaks, h.continues⟩

lemma join (ha : a.Confined B C) (hb : b.Confined B C) : (a.join b).Confined B C where
  breaks level hl := (NatSet.mem_union.mp hl).elim (ha.breaks level) (hb.breaks level)
  continues level hl := (NatSet.mem_union.mp hl).elim (ha.continues level) (hb.continues level)

lemma andThen (ha : a.Confined B C) (hb : b.Confined B C) : (a.andThen b).Confined B C := by
  rw [Exits.andThen]
  split
  · have hfirst : Confined B C { a with completes := false } := ⟨ha.breaks, ha.continues⟩
    exact hfirst.join hb
  · exact ha

lemma orStops (h : s.Confined B C) : s.orStops.Confined B C := by
  rw [Exits.orStops]
  split
  · exact h
  · exact ⟨h.breaks, h.continues⟩

end Confined

lemma confined_foldl_join (h : ∀ b ∈ l, b.Confined B C) (hs : s.Confined B C) :
    (l.foldl join s).Confined B C := by
  induction l generalizing s with
  | nil => exact hs
  | cons b l ih =>
      exact ih (fun c hc => h c (List.mem_cons_of_mem b hc)) (hs.join (h b List.mem_cons_self))

lemma confined_oneOf (h : ∀ b ∈ l, b.Confined B C) : (oneOf l).Confined B C :=
  (confined_foldl_join h (confined_of_no_jumps rfl rfl)).orStops

lemma confined_guarded {t : ClassTable} {clauses : List Handler} {last : Option Exits}
    (hbody : body.Confined B C) (hclauses : ∀ clause ∈ clauses, clause.body.Confined B C)
    (hlast : ∀ s ∈ last, s.Confined B C) : (guarded t body clauses last).Confined B C := by
  have hkept : (guardedKept t body clauses).Confined B C := by
    rw [guardedKept, ← List.foldl_map]
    refine confined_foldl_join ?_ ⟨hbody.breaks, hbody.continues⟩
    simpa using hclauses
  cases last with
  | none =>
      rw [guarded_none]
      exact hkept.orStops
  | some s =>
      have hs := hlast s rfl
      have hjumps : Confined B C { s with completes := false } := ⟨hs.breaks, hs.continues⟩
      rw [guarded_some]
      split
      · exact (hkept.join hjumps).orStops
      · exact hs

/-! ### Loops and switches -/

section Outside

variable (hB : ∀ level, 1 ≤ level → B' (level + 1) → B level)
  (hC : ∀ level, 1 ≤ level → C' (level + 1) → C level)
include hB hC

/-- Seen from outside a construct a jump leaves one construct less. -/
lemma Confined.outside (h : body.Confined B' C') :
    (∀ level ∈ outerLevels body.breaks, B level) ∧
      ∀ level ∈ outerLevels body.continues, C level := by
  constructor
  · intro level hlevel
    obtain ⟨hpos, hmem⟩ := mem_outerLevels.mp hlevel
    exact hB level hpos (h.breaks _ hmem)
  · intro level hlevel
    obtain ⟨hpos, hmem⟩ := mem_outerLevels.mp hlevel
    exact hC level hpos (h.continues _ hmem)

lemma confined_loop (h : body.Confined B' C') (condition : Option Bool) :
    (body.loop condition).Confined B C := by
  obtain ⟨hbreaks, hcontinues⟩ := h.outside hB hC
  exact Confined.orStops ⟨hbreaks, hcontinues⟩

lemma confined_doWhile (h : body.Confined B' C') (condition : Option Bool) :
    (body.doWhile condition).Confined B C := by
  obtain ⟨hbreaks, hcontinues⟩ := h.outside hB hC
  exact Confined.orStops ⟨hbreaks, hcontinues⟩

variable (hplain : C' 1 → C 1)
include hplain

lemma confined_switchGroup (h : body.Confined B' C') (isLast : Bool) :
    (body.switchGroup isLast).Confined B C := by
  obtain ⟨hbreaks, hcontinues⟩ := h.outside hB hC
  refine ⟨hbreaks, fun level hlevel => ?_⟩
  rcases NatSet.mem_union.mp hlevel with hlevel | hlevel
  · obtain ⟨hmem, hone⟩ := NatSet.mem_filter.mp hlevel
    obtain rfl : level = 1 := by simpa using hone
    exact hplain (h.continues 1 hmem)
  · exact hcontinues level hlevel

lemma confined_switchGroups (h : ∀ b ∈ l, b.Confined B' C') : (switchGroups l).Confined B C := by
  induction l with
  | nil => exact confined_of_no_jumps rfl rfl
  | cons group groups ih =>
      have hgroup := h group List.mem_cons_self
      cases groups with
      | nil => exact confined_switchGroup hB hC hplain hgroup true
      | cons next rest =>
          rw [switchGroups_cons]
          exact (confined_switchGroup hB hC hplain hgroup false).join
            (ih fun b hb => h b (List.mem_cons_of_mem group hb))

/-- Out of a switch come the jumps that leave more than it, and plain continues. -/
lemma confined_switch (h : ∀ b ∈ l, b.Confined B' C') (hasDefault : Bool) :
    (switch l hasDefault).Confined B C := by
  have hpasses : Confined B C { completes := !hasDefault || l.isEmpty } :=
    confined_of_no_jumps rfl rfl
  exact (hpasses.join (confined_switchGroups hB hC hplain h)).orStops

end Outside

end ScriptCheck.Exits
