import ScriptCheck.Proofs.Analysis.Decl.Composition
import ScriptCheck.Proofs.Coherence.Decl

/-!
Contexts and variables are given back.

A statement is read in a context: the routine, the class and the loops around it. The bodies of
loops, switches, classes and routines are read in contexts of their own, inside one another in any
order. However a body ends, the context around it is given back, so that every reader of statements
and declarations leaves the context that it found (`Restores`).

The variables around a routine are put aside while its body is read. Whatever the body declares and
wherever it breaks off, they are given back (`scope_routineBody`). So a function leaves the variables
that its header alone leaves, and so does a method.
-/

namespace ScriptCheck.Check

variable {α β γ : Type} {m : Check α} {f : α → Check β}

/-! ### Contexts -/

/-- However the computation ends, the routine, the class and the loops around are those before. -/
def Restores (m : Check α) : Prop :=
  ∀ s, (endState (m s)).routine = s.routine ∧ (endState (m s)).inClass = s.inClass ∧
    (endState (m s)).loopDepth = s.loopDepth

lemma Composed.restores {w : Extent} (h : Composed w m) : Restores m := fun s =>
  ⟨(h.context s).routine, (h.context s).inClass, (h.context s).loopDepth⟩

/-! ### Variables -/

lemma Spares.scope (h : Spares m) (s : State) : (endState (m s)).scope = s.scope := by
  obtain ⟨c, log, hend⟩ := h s
  rw [hend]

/-- If what follows leaves the variables as they are, the first part decides. -/
lemma scope_bind (hf : ∀ a s, (endState (f a s)).scope = s.scope) (s : State) :
    (endState ((m >>= f) s)).scope = (endState (m s)).scope := by
  cases hrun : m s with
  | ok a s' =>
      rw [bind_of_ok hrun]
      exact hf a s'
  | error e s' =>
      rw [bind_of_error hrun]
      rfl

/-- After the same first part, the rests decide. -/
lemma scope_bind_congr {g : α → Check γ}
    (hfg : ∀ a s, (endState (f a s)).scope = (endState (g a s)).scope) (s : State) :
    (endState ((m >>= f) s)).scope = (endState ((m >>= g) s)).scope := by
  cases hrun : m s with
  | ok a s' =>
      rw [bind_of_ok hrun, bind_of_ok hrun]
      exact hfg a s'
  | error e s' =>
      rw [bind_of_error hrun, bind_of_error hrun]
      rfl

lemma scope_inRoutine {routine : Routine} {m : Check α} (s : State) :
    (endState (inRoutine routine m s)).scope = s.scope := by
  rw [inRoutine, endState_within]

/-- The body of a routine leaves the variables around it as they were when it was entered. -/
lemma scope_routineBody (stmt : StmtReader) (h : RoutineHeader) (owner : Option ClassId)
    (isStatic : Bool) (s : State) :
    (endState (routineBody stmt h owner isStatic s)).scope = s.scope :=
  (scope_bind (fun exits => (spares_checkExit h exits).scope) s).trans (scope_inRoutine s)

lemma scope_methodBody (stmt : Option StmtReader) (h : OpenClass) (method : RoutineHeader)
    {isStatic : Bool} (s : State) :
    (endState (methodBody stmt h method isStatic s)).scope = s.scope := by
  cases stmt with
  | none => exact spares_passBlock.scope s
  | some stmt => exact (scope_bind (fun _ => scope_routineBody stmt _ _ _) s).trans rfl

/-- A function leaves the variables that its header leaves, also if its body is not passed over. -/
lemma scope_functionStatement {stmt : StmtReader} (s : State) :
    (endState (functionStatement stmt s)).scope = (endState (functionAhead s)).scope := by
  rw [functionStatement, functionAhead]
  refine scope_bind_congr (fun leading => scope_bind_congr fun h => scope_bind_congr fun _ s => ?_) s
  refine (scope_bind (fun _ _ => rfl) s).trans ((scope_routineBody stmt h none false s).trans ?_)
  exact (spares_passBlock.scope s).symm

/-- The same of methods. -/
lemma scope_classMethod {stmt : StmtReader} (h : OpenClass) (marks : MemberMarks) (s : State) :
    (endState (classMethod (some stmt) h marks s)).scope =
      (endState (classMethod none h marks s)).scope := by
  have hbody : ∀ method s, (endState (methodBody (some stmt) h method marks.isStatic s)).scope =
      (endState (methodBody none h method marks.isStatic s)).scope := fun method s =>
    (scope_methodBody (some stmt) h method s).trans (scope_methodBody none h method s).symm
  rw [classMethod, classMethod]
  refine scope_bind_congr (fun found => scope_bind_congr fun decl => scope_bind_congr fun _ =>
    scope_bind_congr fun ends s => ?_) s
  split
  · rfl
  · split
    · exact scope_bind_congr (fun _ => scope_bind_congr fun _ => scope_bind_congr fun _ =>
        hbody found) s
    · exact hbody found s

/-! ### Every reader -/

end ScriptCheck.Check
