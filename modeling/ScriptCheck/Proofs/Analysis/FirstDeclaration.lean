import ScriptCheck.Proofs.Analysis.Screening
import ScriptCheck.Proofs.Class.Retention
import ScriptCheck.Proofs.Coherence.Program

/-!
The first declaration of a name counts, and nothing changes it later.

Every reader leaves what is declared where it starts as it is (`Check.Retains`), also where a part is
broken off and passed over. The exception is the body of a class, read by the reading that declared
the class: it adds members to this class and to no other (`Check.retains_classBody`).

Both passes over a file are loops. Broken off after some steps, a loop has declared part of what it
declares when it goes on, and leaves that part as it is (`Check.Continues`). So between any two
moments of an analysis nothing that is declared changes.
-/

namespace ScriptCheck

namespace Check

variable {α β : Type} {m n : Check α} {f g : α → Check β}

/-! ### Readers -/

/-- However the computation ends, what was declared at its start is as it was, and the cursor still
stands on a token. -/
def Retains (m : Check α) : Prop :=
  ∀ s, s.cursor.IsProper →
    (endState (m s)).cursor.IsProper ∧ s.env.Retains none (endState (m s)).env

/-- A computation that keeps every law leaves what is declared as it is. -/
lemma Retains.of_agree (h : ∀ file tokens before, ∃ (β : Type) (R : α → β → Prop) (n : Check β),
    (retentionLaw file tokens none before).Agree 0 R m n) : Retains m := by
  intro s hs
  obtain ⟨β, R, n, hagree⟩ := h s.cursor.file s.cursor.tokens s.env
  exact retains_of_agree hs hagree

lemma Retains.bind (hm : Retains m) (hf : ∀ a, Retains (f a)) : Retains (m >>= f) := by
  intro s hs
  have hfirst := hm s hs
  cases hrun : m s with
  | ok a s' =>
      rw [hrun] at hfirst
      rw [bind_of_ok hrun]
      exact ⟨(hf a s' hfirst.1).1, hfirst.2.trans (hf a s' hfirst.1).2⟩
  | error e s' =>
      rw [hrun] at hfirst
      rw [bind_of_error hrun]
      exact hfirst

lemma retains_stmtWithin (depth : Nat) : Retains (stmtWithin depth) :=
  .of_agree fun _ _ _ => ⟨_, _, _, agree_stmtWithin depth 0⟩

lemma retains_stmt : Retains stmt :=
  .of_agree fun _ _ _ => ⟨_, _, _, agree_stmt 0⟩

lemma retains_expr (power : Power) : Retains (expr power) :=
  .of_agree fun _ _ _ => ⟨_, _, _, agree_expr⟩

lemma retains_declareHere : Retains declareHere :=
  .of_agree fun _ _ _ => ⟨_, _, _, agree_declareHere⟩

lemma retains_classHeader (leading : Option Note) : Retains (classHeader leading) :=
  .of_agree fun _ _ _ => ⟨_, _, _, agree_classHeader leading⟩

/-- The body of a class changes that class only, and only if this reading declared it. -/
lemma retains_classBody (depth : Nat) {stmt : Option StmtReader}
    (hstmt : stmt ∈ [none, some (stmtWithin depth)]) (h : OpenClass) {s : State}
    (hs : s.cursor.IsProper) :
    s.env.Retains (if h.isFresh then some h.id else none) (endState (classBody stmt h s)).env := by
  refine (retains_of_agree hs (agree_classBody (h := h) (fun reader hreader => ?_) ?_)).2
  · rw [List.mem_pair] at hstmt
    obtain rfl | rfl := hstmt
    · cases hreader
    · rw [← Option.some.inj hreader]
      exact agree_stmtWithin depth
  · intro hfresh _
    rw [if_pos hfresh]

/-! ### Headers of classes -/

/-- The class of a name is in the table, as it was before, or as a stub. -/
lemma exists_of_classFor {name : String} {isInterface : Bool} {p : Position} {s s' : State}
    {id : ClassId} (h : classFor name isInterface p s = .ok id s') :
    ∃ decl, s'.env.classes.get? id = some decl ∧
      (s.env.classes.get? id = some decl ∨
        s.env.classes.get? id = none ∧ decl = .stub name isInterface p) := by
  rw [classFor, bind_of_ok (get_run s)] at h
  cases hid : s.env.classes.idOf? name with
  | some found =>
      rw [hid] at h
      cases h
      have hdecl := List.getElem?_eq_getElem (ClassTable.lt_size_of_idOf? hid)
      exact ⟨_, hdecl, .inl hdecl⟩
  | none =>
      rw [hid] at h
      cases h
      exact s.env.classes.exists_of_add (.stub name isInterface p)

/-- A header declares its class, or finds it declared and leaves everything as it was. -/
lemma exists_of_classHeader {leading : Option Note} {s s' : State} {h : OpenClass}
    (hrun : classHeader leading s = .ok h s') :
    ∃ (t : State) (decl : ClassDef), t.env.classes.get? h.id = some decl ∧
      (s.env.classes.get? h.id = some decl ∨
        s.env.classes.get? h.id = none ∧ decl.isDeclared = false) ∧
      (h.isFresh = false ∧ decl.isDeclared = true ∧ s'.env = t.env ∨
        h.isFresh = true ∧ decl.isDeclared = false ∧ ∃ g : ClassDef → ClassDef,
          (g decl).isDeclared = true ∧ s'.env = t.env.modifyClass h.id g) := by
  obtain ⟨depth, s₁, hbound, hrun⟩ := exists_of_bind hrun
  obtain ⟨marks, s₂, hmarks, hrun⟩ := exists_of_bind hrun
  obtain ⟨isInterface, s₃, hinterface, hrun⟩ := exists_of_bind hrun
  obtain ⟨name, s₄, hname, hrun⟩ := exists_of_bind hrun
  obtain ⟨start, s₅, hstart, hrun⟩ := exists_of_bind hrun
  obtain ⟨isUnchecked, s₆, hunchecked, hrun⟩ := exists_of_bind hrun
  obtain ⟨parents, s₇, hparents, hrun⟩ := exists_of_bind hrun
  obtain ⟨id, t, hid, hrun⟩ := exists_of_bind hrun
  -- before the class is looked up, only words of the header are read
  have henv : s₇.env = s.env := by
    rw [composed_parentNames.env_of_ok hparents, composed_uncheckedMark.env_of_ok hunchecked,
      composed_positionOf.env_of_ok hstart, composed_require.env_of_ok hname,
      composed_interfaceMark.env_of_ok hinterface, (composed_classMarksFrom _).env_of_ok hmarks,
      composed_bound.env_of_ok hbound]
  obtain ⟨decl, hdecl, hbefore⟩ := exists_of_classFor hid
  rw [henv] at hbefore
  have hstub : s.env.classes.get? id = some decl ∨
      s.env.classes.get? id = none ∧ decl.isDeclared = false := by
    refine hbefore.imp_right ?_
    rintro ⟨hnone, rfl⟩
    exact ⟨hnone, rfl⟩
  rw [bind_of_ok (classes_run t), hdecl] at hrun
  dsimp only [Option.getD_some] at hrun
  split at hrun
  case isTrue hdeclared =>
      -- met again at its own place, or reported as repeated
      split at hrun
      · cases hrun
        exact ⟨_, decl, hdecl, hstub, .inl ⟨rfl, hdeclared, rfl⟩⟩
      · obtain ⟨_, t', hreport, hrun⟩ := exists_of_bind hrun
        cases hrun
        have henv' := (composed_report rfl).env_of_ok hreport
        exact ⟨t, decl, hdecl, hstub, .inl ⟨rfl, hdeclared, henv'⟩⟩
  case isFalse hundeclared =>
      obtain ⟨superclass, t₁, hsuper, hrun⟩ := exists_of_bind hrun
      obtain ⟨interfaces, t₂, hinterfaces, hrun⟩ := exists_of_bind hrun
      obtain ⟨_, t₃, hmodify, hrun⟩ := exists_of_bind hrun
      cases hrun
      have henv' : s'.env = t₂.env.modifyClass id (.declare isInterface marks.isAbstract
          marks.isFinal isUnchecked start superclass.head? interfaces) := by
        cases hmodify
        rfl
      rw [steady_knownParents.composed.env_of_ok hinterfaces,
        steady_knownParents.composed.env_of_ok hsuper] at henv'
      refine ⟨t, decl, hdecl, hstub, .inr ⟨rfl, Bool.eq_false_of_not_eq_true hundeclared, ?_⟩⟩
      exact ⟨_, rfl, henv'⟩

/-- After its header a class is declared, by this reading if it was not declared before. -/
lemma isFresh_iff_of_classHeader {leading : Option Note} {s s' : State} {h : OpenClass}
    (hrun : classHeader leading s = .ok h s') : s'.env.classes.IsDeclared h.id ∧
      (h.isFresh = true ↔ ¬s.env.classes.IsDeclared h.id) := by
  obtain ⟨t, decl, hdecl, hbefore, ⟨hfresh, hdeclared, henv⟩ | ⟨hfresh, hundeclared, hmodify⟩⟩ :=
    exists_of_classHeader hrun
  · have hsame : s.env.classes.get? h.id = some decl := by
      refine hbefore.resolve_right fun hnew => ?_
      rw [hdeclared] at hnew
      cases hnew.2
    rw [hfresh, henv]
    exact ⟨⟨decl, hdecl, hdeclared⟩, nofun, fun hnot => absurd ⟨decl, hsame, hdeclared⟩ hnot⟩
  · obtain ⟨g, hdeclares, henv⟩ := hmodify
    have hnow := t.env.classes.get?_modify h.id h.id g
    rw [hdecl, Option.map_some, if_pos rfl] at hnow
    rw [hfresh, henv]
    refine ⟨⟨g decl, hnow, hdeclares⟩, fun _ => ?_, fun _ => rfl⟩
    rintro ⟨decl', hdecl', hdeclared⟩
    obtain hsame | ⟨hnone, -⟩ := hbefore
    · rw [Option.some.inj (hdecl'.symm.trans hsame), hundeclared] at hdeclared
      cases hdeclared
    · cases hnone.symm.trans hdecl'

/-- After its header a function is registered, as it was, or with this header. -/
lemma function?_enterFunction (h : RoutineHeader) (s : State) :
    (endState (enterFunction h s)).env.function? h.name =
      some ((s.env.function? h.name).getD ⟨h.name, h.signature, h.position⟩) := by
  rw [enterFunction, bind_of_ok (get_run s)]
  cases hknown : s.env.function? h.name with
  | some known =>
      dsimp only [Option.getD_some]
      split
      · exact hknown
      · exact hknown
  | none =>
      have hadd := s.env.function?_addFunction ⟨h.name, h.signature, h.position⟩
      rw [hknown] at hadd
      exact hadd

/-! ### Loops that are broken off -/

/-- The second computation goes on where the first is broken off: both give the same, or the first
runs out of steps, and the second leaves what is declared by then as it is. -/
def Continues (m n : Check α) : Prop :=
  ∀ s, s.cursor.IsProper →
    m s = n s ∨ ∃ s', m s = .error .spent s' ∧ s'.env.Retains none (endState (n s)).env

namespace Continues

lemma refl (m : Check α) : Continues m m := fun _ _ => .inl rfl

/-- Nothing has been done before the second computation. -/
lemma spent (hn : Retains n) : Continues (throw .spent) n :=
  fun s hs => .inr ⟨s, rfl, (hn s hs).2⟩

lemma bind (hm : Retains m) (h : ∀ a, Continues (f a) (g a)) : Continues (m >>= f) (m >>= g) := by
  intro s hs
  have hproper := (hm s hs).1
  cases hrun : m s with
  | ok a s' =>
      rw [hrun] at hproper
      rw [bind_of_ok hrun, bind_of_ok hrun]
      exact h a s' hproper
  | error e s' =>
      rw [bind_of_error hrun, bind_of_error hrun]
      exact .inl rfl

lemma map (φ : α → β) (h : Continues m n) :
    Continues (m >>= fun a => pure (φ a)) (n >>= fun a => pure (φ a)) := by
  intro s hs
  obtain heq | ⟨s', hspent, hretains⟩ := h s hs
  · left
    show EStateM.bind m _ s = EStateM.bind n _ s
    rw [EStateM.bind, EStateM.bind, heq]
  · refine .inr ⟨s', bind_of_error hspent, ?_⟩
    cases hrun : n s with
    | ok a t =>
        rw [hrun] at hretains
        rw [bind_of_ok hrun]
        exact hretains
    | error e t =>
        rw [hrun] at hretains
        rw [bind_of_error hrun]
        exact hretains

lemma ite {p : Prop} [Decidable p] {m' n' : Check α} (h : Continues m n) (h' : Continues m' n') :
    Continues (if p then m else m') (if p then n else n') := by
  split
  · exact h
  · exact h'

/-- However the first one ends, the second leaves what is declared by then as it is. -/
lemma retains (h : Continues m n) {s : State} (hs : s.cursor.IsProper) :
    (endState (m s)).env.Retains none (endState (n s)).env := by
  obtain heq | ⟨s', hspent, hretains⟩ := h s hs
  · rw [heq]
    exact .refl none _
  · rw [hspent]
    exact hretains

end Continues

/-- A loop that comes to its end has gone on from wherever it might have been broken off. -/
lemma retains_of_loop {loop : Nat → Check α}
    (hloop : ∀ {steps later}, steps ≤ later → Continues (loop steps) (loop later)) {s t : State}
    (hs : s.cursor.IsProper) {enough : Nat} {a : α} (hend : loop enough s = .ok a t) (steps : Nat) :
    (endState (loop steps s)).env.Retains none t.env := by
  obtain hle | hle := Nat.le_total steps enough
  · have hretains := (hloop hle).retains hs
    rw [hend] at hretains
    exact hretains
  · obtain heq | ⟨s', hspent, -⟩ := hloop hle s hs
    · rw [← heq, hend]
      exact .refl none _
    · cases hend.symm.trans hspent

lemma retains_pure {a : α} : Retains (pure a) := fun s hs => ⟨hs, .refl none s.env⟩

lemma retains_kind : Retains kind :=
  .of_agree fun _ _ _ => ⟨_, _, _, agree_kind⟩

lemma retains_cursor : Retains cursor :=
  .of_agree fun _ _ _ => ⟨_, _, _, agree_cursor⟩

lemma retains_advance : Retains advance :=
  .of_agree fun _ _ _ => ⟨_, _, _, agree_advance⟩

lemma retains_declarationsFrom (steps depth : Nat) : Retains (declarationsFrom steps depth) :=
  .of_agree fun _ _ _ => ⟨_, _, _, agree_declarationsFrom steps depth⟩

lemma continues_declarationsFrom {steps later : Nat} (h : steps ≤ later) (depth : Nat) :
    Continues (declarationsFrom steps depth) (declarationsFrom later depth) := by
  induction steps generalizing later depth with
  | zero => exact .spent (retains_declarationsFrom later depth)
  | succ steps ih =>
      obtain ⟨later, rfl⟩ := Nat.exists_eq_add_of_le' (Nat.le_of_add_left_le h)
      have hle : steps ≤ later := Nat.le_of_succ_le_succ h
      refine .bind retains_kind fun here => .ite (.refl _) (.bind retains_cursor fun c => ?_)
      have hrecover : Retains (recover none declareHere) :=
        .of_agree fun _ _ _ => ⟨_, _, _, agree_declareHere.recover rfl⟩
      refine .ite (.bind hrecover fun declared => ?_) (.bind retains_pure fun declared => ?_)
      all_goals
        refine .bind retains_cursor fun c' => .ite (.map _ (ih hle depth)) ?_
        exact .bind retains_advance fun token => ih hle _

lemma retains_statementsFrom (ends : List Kind) (steps : Nat) (exits : Exits) (reported : Bool) :
    Retains (statementsFrom stmt ends steps exits reported) :=
  .of_agree fun _ _ _ => ⟨_, _, _, agree_statementsFrom agree_stmt ends steps exits reported⟩

lemma continues_statementsFrom {steps later : Nat} (h : steps ≤ later) (ends : List Kind)
    (exits : Exits) (reported : Bool) :
    Continues (statementsFrom stmt ends steps exits reported)
      (statementsFrom stmt ends later exits reported) := by
  induction steps generalizing later exits reported with
  | zero => exact .spent (retains_statementsFrom ends later exits reported)
  | succ steps ih =>
      obtain ⟨later, rfl⟩ := Nat.exists_eq_add_of_le' (Nat.le_of_add_left_le h)
      have hle : steps ≤ later := Nat.le_of_succ_le_succ h
      have hposition : Retains position := .of_agree fun _ _ _ => ⟨_, _, _, agree_position⟩
      have hahead : Retains declarationAhead :=
        .of_agree fun _ _ _ => ⟨_, _, _, agree_declarationAhead⟩
      have hreport (p : Position) : Retains (reportUnreachable p) :=
        .of_agree fun _ _ _ => ⟨_, _, _, agree_reportUnreachable p⟩
      refine .bind retains_kind fun here => .ite (.refl _) (.bind hposition fun start => ?_)
      refine .bind hahead fun isDeclaration => .bind retains_stmt fun next => ?_
      refine .ite (ih hle _ _) (.ite (ih hle _ _) ?_)
      exact .bind (hreport start) fun _ => ih hle _ _

/-! ### The passes over a file -/

lemma retains_enterClasses : Retains enterClasses :=
  .of_agree fun _ _ _ => ⟨_, _, _, agree_enterClasses⟩

lemma retains_rewind : Retains rewind :=
  .of_agree fun _ _ _ => ⟨_, _, _, agree_rewind⟩

lemma retains_declarations : Retains declarations :=
  .of_agree fun _ _ _ => ⟨_, _, _, agree_declarations⟩

lemma retains_checkAllInheritance (ids : List ClassId) : Retains (checkAllInheritance ids) :=
  .of_agree fun _ _ _ => ⟨_, _, _, agree_checkAllInheritance ids⟩

lemma retains_declaringUpTo (steps : Nat) : Retains (declaringUpTo steps) :=
  retains_enterClasses.bind fun _ => retains_rewind.bind fun _ => retains_declarationsFrom steps 0

lemma continues_declaringUpTo {steps later : Nat} (h : steps ≤ later) :
    Continues (declaringUpTo steps) (declaringUpTo later) :=
  .bind retains_enterClasses fun _ => .bind retains_rewind fun _ => continues_declarationsFrom h 0

lemma continues_readingUpTo {steps later : Nat} (h : steps ≤ later) :
    Continues (readingUpTo steps) (readingUpTo later) := by
  refine .bind retains_enterClasses fun _ => .bind retains_declarations fun _ => ?_
  exact .bind retains_rewind fun _ => continues_statementsFrom h [] .passing false

namespace Passes

variable {s declared final : State} {exits : Exits} (h : Passes s declared exits final)
include h

/-- The pass over the declarations leaves what a part of it declares. -/
lemma retains_declaring (hs : s.cursor.IsProper) (steps : Nat) :
    (endState (declaringUpTo steps s)).env.Retains none declared.env := by
  obtain ⟨_, top, hrewind, hrest⟩ := exists_of_bind h.ahead
  obtain ⟨enough, hbound⟩ := peeks_bound top
  rw [bind_of_ok hbound] at hrest
  obtain ⟨ids, u, hdeclared, hchecked⟩ := exists_of_bind hrest
  have hend : declaringUpTo enough s = .ok ids u := by
    rw [declaringUpTo, bind_of_ok (enterClasses_run s), bind_of_ok hrewind, hdeclared]
  have hu := (retains_declaringUpTo enough s hs).1
  rw [hend] at hu
  have hafter := (retains_checkAllInheritance ids u hu).2
  rw [hchecked] at hafter
  exact (retains_of_loop continues_declaringUpTo hs hend steps).trans hafter

/-- What is read after the declarations is read from where they end. -/
lemma readingUpTo_eq (steps : Nat) :
    readingUpTo steps s = (rewind >>= fun _ => statementsFrom stmt [] steps .passing false) declared := by
  rw [readingUpTo, bind_of_ok (enterClasses_run s)]
  exact bind_of_ok h.ahead

/-- While the statements are read, nothing declared ahead is changed. -/
lemma retains_ahead (steps : Nat) :
    declared.env.Retains none (endState (readingUpTo steps s)).env := by
  rw [h.readingUpTo_eq]
  exact ((retains_rewind.bind fun _ => retains_statementsFrom [] steps _ _) declared h.proper).2

/-- After enough steps the statements are read to the end. -/
lemma exists_readingUpTo : ∃ enough, readingUpTo enough s = .ok exits final := by
  obtain ⟨enough, hbound⟩ := peeks_bound { declared with cursor := declared.cursor.moveTo 0 }
  have hread := h.read
  rw [statements, bind_of_ok hbound] at hread
  exact ⟨enough, (h.readingUpTo_eq enough).trans hread⟩

lemma retains_final : declared.env.Retains none final.env := by
  obtain ⟨enough, hend⟩ := h.exists_readingUpTo
  have hretains := h.retains_ahead enough
  rwa [hend] at hretains

/-- The analysis leaves what is declared after some of the statements. -/
lemma retains_reading (hs : s.cursor.IsProper) (steps : Nat) :
    (endState (readingUpTo steps s)).env.Retains none final.env := by
  obtain ⟨enough, hend⟩ := h.exists_readingUpTo
  exact retains_of_loop continues_readingUpTo hs hend steps

end Passes

end Check

/-! ### Every moment -/

/-- The first moment is the second one, or comes before it. -/
inductive Moment.Before : Moment → Moment → Prop
  | start (later : Moment) : Before .start later
  | declaring {steps later : Nat} (h : steps ≤ later) : Before (.declaring steps) (.declaring later)
  | declared (steps later : Nat) : Before (.declaring steps) (.reading later)
  | reading {steps later : Nat} (h : steps ≤ later) : Before (.reading steps) (.reading later)
  | done (earlier : Moment) : Before earlier .done

/-- Between two moments of an analysis nothing that is declared changes. -/
lemma Moment.Before.retains {earlier later : Moment} (h : earlier.Before later) {s : State}
    (hs : s.cursor.IsProper) : (earlier.state s).env.Retains none (later.state s).env := by
  obtain ⟨declared, exits, final, hpasses⟩ := Check.exists_passes hs
  have hstart : s.env.Retains none declared.env :=
    (Check.retains_declaringUpTo 0 s hs).2.trans (hpasses.retains_declaring hs 0)
  have hdone : (Moment.done.state s).env = final.env := by
    rw [Moment.state, hpasses.analysis]
    rfl
  cases h with
  | start later =>
      cases later with
      | start => exact .refl none _
      | declaring steps => exact (Check.retains_declaringUpTo steps s hs).2
      | reading steps => exact hstart.trans (hpasses.retains_ahead steps)
      | done => exact hdone ▸ hstart.trans hpasses.retains_final
  | declaring h => exact (Check.continues_declaringUpTo h).retains hs
  | declared steps later =>
      exact (hpasses.retains_declaring hs steps).trans (hpasses.retains_ahead later)
  | reading h => exact (Check.continues_readingUpTo h).retains hs
  | done earlier =>
      rw [hdone]
      cases earlier with
      | start => exact hstart.trans hpasses.retains_final
      | declaring steps =>
          exact (hpasses.retains_declaring hs steps).trans hpasses.retains_final
      | reading steps => exact hpasses.retains_reading hs steps
      | done => exact hdone ▸ .refl none _

/-- **The first declaration of a name stays as it is.** Let a source have tokens.

Between any two moments of its analysis, whatever is broken off and passed over, declared classes,
functions and constants stay the same, and what is new has a name that was not taken. In particular,
what is declared ahead of the statements is the same after the statements have been read, to the end.

The same holds, from every state, of every reader of statements, expressions, declarations and
headers of classes. Functions and constants are entered unless their names are taken. After its
header a class is declared, and the reading is the one that declared it just if it was not declared
before. Only then does the body of the class add anything to a declared class, and to none but this
one. -/
theorem first_declaration_stays (source file : String) (options : Options) (tokens : List Token)
    (hscan : scan file source.toList = .ok tokens) :
    (∀ earlier later : Moment, earlier.Before later →
      (earlier.state (State.start file tokens options)).env.Retains none
        (later.state (State.start file tokens options)).env) ∧
    (∃ declared exits final,
      (Check.enterClasses >>= fun _ => Check.declarations) (State.start file tokens options) =
        .ok () declared ∧
      Check.program (State.start file tokens options) = .ok exits final ∧
      declared.env.Retains none final.env) ∧
    (∀ depth power leading, Check.Retains (Check.stmtWithin depth) ∧
      Check.Retains (Check.expr power) ∧ Check.Retains Check.declareHere ∧
      Check.Retains (Check.classHeader leading)) ∧
    (∀ h s, (Check.endState (Check.enterFunction h s)).env.function? h.name =
      some ((s.env.function? h.name).getD ⟨h.name, h.signature, h.position⟩)) ∧
    (∀ (env : Env) name type, (env.addConstant name type).constants.lookup name =
      some ((env.constants.lookup name).getD type)) ∧
    (∀ leading s h s', Check.classHeader leading s = .ok h s' →
      s'.env.classes.IsDeclared h.id ∧ (h.isFresh = true ↔ ¬s.env.classes.IsDeclared h.id)) ∧
    ∀ depth h (s : State), s.cursor.IsProper → ∀ stmt ∈ [none, some (Check.stmtWithin depth)],
      s.env.Retains (if h.isFresh then some h.id else none)
        (Check.endState (Check.classBody stmt h s)).env := by
  have hproper := Check.isProper_start hscan options
  obtain ⟨declared, exits, final, hpasses⟩ := Check.exists_passes hproper
  refine ⟨fun earlier later h => h.retains hproper, ?_, fun depth power leading => ?_,
    Check.function?_enterFunction, Env.lookup_addConstant, ?_, ?_⟩
  · exact ⟨declared, exits, final, hpasses.ahead, hpasses.analysis, hpasses.retains_final⟩
  · exact ⟨Check.retains_stmtWithin depth, Check.retains_expr power, Check.retains_declareHere,
      Check.retains_classHeader leading⟩
  · exact fun leading s h s' => Check.isFresh_iff_of_classHeader
  · exact fun depth h s hs stmt hstmt => Check.retains_classBody depth hstmt h hs

/-- A class and a function that are declared twice. In the first class a member is broken. -/
def repeatedDeclarations : String :=
  "class A \x7b const X = 1; const = 2; \x7d class A \x7b const Y = 3; \x7d " ++
    "function f() \x7b\x7d function f($x) \x7b\x7d"

/-- The class has the constant of its first declaration only, and the function has no parameter. -/
theorem first_declaration_stays_repeatedDeclarations :
    ∃ tokens declared exits final,
      scan "main" repeatedDeclarations.toList = .ok tokens ∧
      (Check.enterClasses >>= fun _ => Check.declarations) (State.start "main" tokens {}) =
        .ok () declared ∧
      Check.program (State.start "main" tokens {}) = .ok exits final ∧
      declared.env.Retains none final.env ∧
      (final.env.classes.get? 8).map (·.constants.map (·.name)) = some ["X"] ∧
      (final.env.function? "f").map (·.signature.params.length) = some 0 := by
  have hvalues : (scan "main" repeatedDeclarations.toList).toOption.map (fun tokens =>
      let env := (Check.endState (Check.program (State.start "main" tokens {}))).env
      ((env.classes.get? 8).map (·.constants.map (·.name)),
        (env.function? "f").map (·.signature.params.length))) = some (some ["X"], some 0) := by
    decide +kernel
  cases hscan : scan "main" repeatedDeclarations.toList with
  | error fault =>
      rw [hscan] at hvalues
      cases hvalues
  | ok tokens =>
      obtain ⟨-, ⟨declared, exits, final, hdeclared, hprogram, hretains⟩, -⟩ :=
        first_declaration_stays repeatedDeclarations "main" {} tokens hscan
      rw [hscan] at hvalues
      have hpair := Option.some.inj hvalues
      dsimp only at hpair
      rw [hprogram] at hpair
      exact ⟨tokens, declared, exits, final, rfl, hdeclared, hprogram, hretains,
        congrArg Prod.fst hpair, congrArg Prod.snd hpair⟩

end ScriptCheck
