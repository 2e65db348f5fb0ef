import ScriptCheck.Proofs.Analysis.Expr.Composition

/-!
What an expression leaves behind.

However the reading of an expression ends, it has moved the cursor, added to the log and to the
compiled types, and declared variables; all else is as it was (`Footprint`). The handlers of the
parts run inside one another and may break off anywhere, and an assignment declares its variable
only after the right side, which may have declared it first. What counts is that each step keeps to
the footprint and that footprints compose: a variable is declared only where there is none of its
name at that moment.
-/

namespace ScriptCheck

/-- What an expression may do to a state: the cursor moves in the same tokens, reports and compiled
types are added, and variables that were there stay what they were. -/
structure Footprint (s s' : State) : Prop where
  cursor : s'.cursor = { s.cursor with index := s'.cursor.index }
  options : s'.options = s.options
  env : s'.env = s.env
  routine : s'.routine = s.routine
  inClass : s'.inClass = s.inClass
  loopDepth : s'.loopDepth = s.loopDepth
  checked : s'.checked = s.checked
  scope : ∀ name v, s.scope.lookup name = some v → s'.scope.lookup name = some v
  types : s.types.entries <+: s'.types.entries
  least : s'.log.least = s.log.least
  log : s.log.entries <+: s'.log.entries

namespace Footprint

variable {s s' s'' : State}

lemma refl (s : State) : Footprint s s where
  cursor := rfl
  options := rfl
  env := rfl
  routine := rfl
  inClass := rfl
  loopDepth := rfl
  checked := rfl
  scope := fun _ _ h => h
  types := List.prefix_refl _
  least := rfl
  log := List.prefix_refl _

lemma trans (h : Footprint s s') (h' : Footprint s' s'') : Footprint s s'' where
  cursor := by rw [h'.cursor, h.cursor]
  options := h'.options.trans h.options
  env := h'.env.trans h.env
  routine := h'.routine.trans h.routine
  inClass := h'.inClass.trans h.inClass
  loopDepth := h'.loopDepth.trans h.loopDepth
  checked := h'.checked.trans h.checked
  scope := fun name v hv => h'.scope name v (h.scope name v hv)
  types := h.types.trans h'.types
  least := h'.least.trans h.least
  log := h.log.trans h'.log

lemma move {c : Cursor} (h : c = { s.cursor with index := c.index }) :
    Footprint s { s with cursor := c } :=
  { refl s with cursor := h }

/-- Reports are added, whatever they are. -/
lemma report (faults : List Fault) :
    Footprint s { s with log := faults.foldl Log.addFault s.log } :=
  { refl s with
    least := Check.least_foldl_addFault faults s.log
    log := Check.entries_prefix_foldl_addFault faults s.log }

/-- A variable is declared under a name that is free. -/
lemma declare {name : String} (h : s.scope.lookup name = none) (type : Ty) (isAnnotated : Bool) :
    Footprint s (Check.endState (Check.setVariable name type isAnnotated s)) := by
  refine { refl s with scope := fun other v hv => ?_ }
  have hne : other ≠ name := by
    rintro rfl
    rw [h] at hv
    cases hv
  rw [← hv]
  exact (Check.lookup_declare _ _ _ _).trans (if_neg hne)

end Footprint

namespace Check

/-- What the steps of expressions do keeps to the footprint. -/
lemma Effects.footprint {s s' : State} (h : Effects .expression s s') : Footprint s s' := by
  induction h with
  | refl s => exact .refl s
  | trans _ _ hm hf => exact hm.trans hf
  | move hplace _ => exact .move hplace
  | report s _ => exact .report _
  | @breakOff s fault _ => exact .report [fault]
  | compile s descriptor =>
      exact { Footprint.refl s with types := TypeCache.entries_prefix_compile _ _ _ }
  | declare hfree type isAnnotated => exact .declare hfree type isAnnotated
  | setVariable _ _ _ _ hw => exact absurd rfl hw
  | changeEnv _ _ hw => exact absurd rfl hw
  | markChecked _ _ hw => exact absurd rfl hw
  | inClass hw _ _ => exact absurd rfl hw
  | inRoutine hw _ _ => rcases hw with hw | hw <;> cases hw
  | inLoop hw _ _ => rcases hw with hw | hw <;> cases hw

/-- **Expressions have a bounded footprint.** For all tokens, from every state and with every power,
the reading of an expression moves the cursor in the same tokens, adds to the log and to the
compiled types, and declares variables under free names; nothing else changes, with or without a
fault. -/
theorem expr_footprint (power : Power) (s : State) :
    Footprint s (endState (Check.expr power s)) :=
  (composed_expr.effects s).footprint

end Check

end ScriptCheck
