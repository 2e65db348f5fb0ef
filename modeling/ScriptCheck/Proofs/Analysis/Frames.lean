import ScriptCheck.Proofs.Analysis.Decl.Composition

/-!
What the statements in a stretch of an analysis give.

A `Frame` tells which states are in the stretch, inside of how many loops and switches, and from
which of them it goes on to its end. `Frame.Gives` says what results a reader gives in a frame, if the
frame goes on from there. A loop or switch reads its body one deeper.

What the ways of composing exits keep is a `Law` of exits. If it holds of jumps and of switches, it
holds of every statement in the frame, by induction over the depth (`gives_stmtWithin`).
-/

namespace ScriptCheck

/-- A property of exits inside a number of loops and switches that the ways of composing them keep. -/
structure Exits.Law (E : Nat → Exits → Prop) : Prop where
  passing : ∀ {depth}, E depth .passing
  stopping : ∀ {depth}, E depth .stopping
  alsoRaising : ∀ {depth exits} (classes : NatSet),
    E depth exits → E depth (exits.alsoRaising classes)
  andThen : ∀ {depth a b}, E depth a → E depth b → E depth (a.andThen b)
  oneOf : ∀ {depth l}, (∀ b ∈ l, E depth b) → E depth (.oneOf l)
  loop : ∀ {depth body} (truth : Option Bool), E (depth + 1) body → E depth (body.loop truth)
  doWhile : ∀ {depth body} (truth : Option Bool), E (depth + 1) body → E depth (body.doWhile truth)
  guarded : ∀ {depth body clauses last} (t : ClassTable), E depth body →
    (∀ clause ∈ clauses, E depth clause.body) → (∀ exits ∈ last, E depth exits) →
    E depth (.guarded t body clauses last)

open Check

/-- A stretch of an analysis. -/
structure Frame where
  /-- The state is in the frame, inside so many loops and switches. -/
  Has : Nat → State → Prop
  /-- The frame goes on from the state to its end. -/
  GoesOn : State → Prop
  has : ∀ {depth s s'}, Has depth s → Effects .statement s s' → Has depth s'
  goesOn : ∀ {depth s s'}, Has depth s → Effects .statement s s' → GoesOn s' → GoesOn s
  inLoop : ∀ {depth} {s : State}, Has depth s →
    Has (depth + 1) { s with loopDepth := s.loopDepth + 1 }
  outside : ∀ {s : State} {loopDepth}, GoesOn { s with loopDepth := loopDepth } → GoesOn s

/-- In the frame, inside so many loops and switches, the computation gives only results with the
property, if the frame goes on from there. -/
structure Frame.Gives {α : Type} (F : Frame) (depth : Nat) (P : α → Prop) (m : Check α) : Prop where
  composed : Composed .statement m
  result : ∀ s a s', F.Has depth s → m s = .ok a s' → F.GoesOn s' → P a

namespace Check

variable {α β : Type} {P : α → Prop} {Q : β → Prop} {m : Check α} {f : α → Check β}
  {stmt : StmtReader} {s s' : State}

/-! ### Results of any kind -/

/-- The computation gives only results with the property. -/
def Yields (P : α → Prop) (m : Check α) : Prop :=
  ∀ s a s', m s = .ok a s' → P a

namespace Yields

lemma pure {a : α} (h : P a) : Yields P (Pure.pure a) := by
  intro s b s' hrun
  cases hrun
  exact h

lemma bind (hf : ∀ a, Yields Q (f a)) : Yields Q (m >>= f) := by
  intro s b s'' hrun
  obtain ⟨a, s', -, hsecond⟩ := exists_of_bind hrun
  exact hf a s' b s'' hsecond

lemma gives {F : Frame} {depth : Nat} (h : Yields P m) (hc : Composed .statement m) :
    F.Gives depth P m :=
  ⟨hc, fun s a s' _ hrun _ => h s a s' hrun⟩

end Yields

lemma yields_label (found : Groups) :
    Yields (fun result => result.bodies = found.bodies) (label found) := by
  refine .bind fun next => ?_
  split
  · exact .bind fun _ => .bind fun _ => .pure rfl
  · exact .bind fun _ => .pure rfl
  · exact fun _ _ _ hrun => nomatch hrun

lemma yields_jumpLevel {keyword : String} : Yields (1 ≤ ·) (jumpLevel keyword) := by
  refine .bind fun next => ?_
  split
  · refine .bind fun token => ?_
    split
    case h_1 level hlevel =>
      refine .pure ?_
      rw [Number.level?] at hlevel
      grind
    case h_2 => exact .bind fun _ => fun _ _ _ hrun => nomatch hrun
  · exact .pure le_rfl

/-- A jump that leaves more constructs than there are is reported, and cut down to these. -/
lemma exists_of_jump {exits : Nat → Exits} {result : Exits} (hrun : jump exits s = .ok result s') :
    ∃ level, 1 ≤ level ∧ result = exits (min level (max s.loopDepth 1)) ∧
      ∃ u token t shown, Effects .statement s u ∧ require .semicolon u = .ok token t ∧
        s' = if s.loopDepth < level then
            { t with
              log := t.log.addFault ⟨.outsideLoop shown, s.cursor.current.start, t.cursor.file⟩ }
          else t := by
  obtain ⟨keyword, s₁, hkeyword, hrun⟩ := exists_of_bind hrun
  obtain ⟨level, u, hlevel, hrun⟩ := exists_of_bind hrun
  obtain ⟨token, t, hclose, hrun⟩ := exists_of_bind hrun
  obtain ⟨t', _, hget, hrun⟩ := exists_of_bind hrun
  cases hget
  obtain rfl : keyword = s.cursor.current := by
    cases hkeyword
    rfl
  have heffects : Effects .statement s u :=
    (composed_advance.effects_of_ok hkeyword).trans (composed_jumpLevel.effects_of_ok hlevel)
  have hdepth : t.loopDepth = s.loopDepth :=
    (heffects.trans (composed_require.effects_of_ok hclose)).context.loopDepth
  dsimp only at hrun
  rw [hdepth] at hrun
  refine ⟨level, yields_jumpLevel _ _ _ hlevel, ?_⟩
  split at hrun
  case isTrue hless =>
    cases hrun
    exact ⟨rfl, u, token, t, _, heffects, hclose, (if_pos hless).symm⟩
  case isFalse hle =>
    cases hrun
    exact ⟨rfl, u, token, _, "", heffects, hclose, (if_neg hle).symm⟩

section Simple

variable {E : Nat → Exits → Prop} {depth : Nat} (hE : Exits.Law E)
include hE

lemma yields_passing {classes : NatSet} :
    Yields (E depth) (Pure.pure (Exits.passing.alsoRaising classes)) :=
  .pure (hE.alsoRaising _ hE.passing)

lemma yields_stopping {classes : NatSet} :
    Yields (E depth) (Pure.pure (Exits.stopping.alsoRaising classes)) :=
  .pure (hE.alsoRaising _ hE.stopping)

lemma yields_exprStatement : Yields (E depth) exprStatement :=
  .bind fun _ => .bind fun _ => yields_passing hE

lemma yields_echo : Yields (E depth) echo :=
  .bind fun _ => .bind fun _ => yields_passing hE

lemma yields_emptyStatement : Yields (E depth) emptyStatement :=
  .bind fun _ => .pure hE.passing

lemma yields_returnStatement : Yields (E depth) returnStatement :=
  .bind fun _ => .bind fun _ => .bind fun _ => .bind fun _ => .bind fun _ => yields_stopping hE

lemma yields_throwStatement : Yields (E depth) throwStatement :=
  .bind fun _ => .bind fun _ => .bind fun _ => .bind fun _ => yields_stopping hE

lemma yields_exitStatement : Yields (E depth) exitStatement := by
  refine .bind fun _ => .bind fun hasArgs => ?_
  split
  · exact .bind fun _ => .bind fun _ => yields_stopping hE
  · exact .bind fun _ => .bind fun _ => yields_stopping hE

lemma yields_constStatement : Yields (E depth) constStatement :=
  .bind fun _ => .bind fun _ => .bind fun _ => .bind fun _ => yields_passing hE

lemma yields_variableStatement : Yields (E depth) variableStatement := by
  refine .bind fun found => ?_
  split
  · exact .bind fun _ => .bind fun _ => .bind fun _ => .bind fun _ => yields_passing hE
  · exact .bind fun _ => fun _ _ _ hrun => nomatch hrun

/-- The exits of the body of a function are not its own. -/
lemma yields_functionStatement : Yields (E depth) (functionStatement stmt) :=
  .bind fun _ => .bind fun _ => .bind fun _ => .bind fun _ => .pure hE.passing

lemma yields_classStatement : Yields (E depth) (classStatement stmt) :=
  .bind fun _ => .bind fun _ => .pure hE.passing

lemma yields_annotatedStatement : Yields (E depth) (annotatedStatement stmt) := by
  refine .bind fun c => ?_
  extract_lets next
  split
  · exact yields_functionStatement hE
  · split
    · exact yields_classStatement hE
    · exact yields_variableStatement hE

end Simple

end Check

namespace Frame

variable {α β : Type} {F : Frame} {depth : Nat} {P : α → Prop} {Q : β → Prop}
  {m : Check α} {f : α → Check β} {stmt : StmtReader}

/-! ### Results in a frame -/

namespace Gives

lemma mono {P' : α → Prop} (h : F.Gives depth P m) (hP : ∀ a, P a → P' a) : F.Gives depth P' m :=
  ⟨h.composed, fun s a s' hs hrun hend => hP a (h.result s a s' hs hrun hend)⟩

lemma pure {a : α} (h : P a) : F.Gives depth P (Pure.pure a : Check α) :=
  (Yields.pure h).gives (.pure a)

lemma spent : F.Gives depth P (throw .spent : Check α) :=
  ⟨composed_spent, fun _ _ _ _ hrun => nomatch hrun⟩

/-- The second result may depend on what is known of the first. -/
lemma bind (hm : F.Gives depth P m) (hf : ∀ a, F.Gives depth (fun b => P a → Q b) (f a)) :
    F.Gives depth Q (m >>= f) := by
  refine ⟨hm.composed.bind fun a => (hf a).composed, fun s b s'' hs hrun hend => ?_⟩
  obtain ⟨a, s', hfirst, hsecond⟩ := exists_of_bind hrun
  have hs' := F.has hs (hm.composed.effects_of_ok hfirst)
  have hend' := F.goesOn hs' ((hf a).composed.effects_of_ok hsecond) hend
  exact (hf a).result s' b s'' hs' hsecond hend (hm.result s a s' hs hfirst hend')

/-- Nothing needs to be known of the first result. -/
lemma after (hm : Composed .statement m) (hf : ∀ a, F.Gives depth Q (f a)) :
    F.Gives depth Q (m >>= f) :=
  .bind (P := fun _ => True) ⟨hm, fun _ _ _ _ _ _ => trivial⟩ fun a => (hf a).mono fun _ h _ => h

lemma require {kind : Kind} {f : Token → Check β} (hf : ∀ token, F.Gives depth Q (f token)) :
    F.Gives depth Q (Check.require kind >>= f) :=
  .after composed_require hf

lemma inLoop (hm : F.Gives (depth + 1) P m) : F.Gives depth P (Check.inLoop m) := by
  refine ⟨hm.composed.inLoop (.inl rfl), fun s a s' hs hrun hend => ?_⟩
  obtain ⟨t, hbody, rfl⟩ := exists_of_within hrun
  exact hm.result _ a t (F.inLoop hs) hbody (F.outside hend)

lemma recover {fallback : α} (h : P fallback) (hm : F.Gives depth P m) :
    F.Gives depth P (Check.recover fallback m) := by
  refine ⟨hm.composed.recover fallback, fun s a s' hs hrun hend => ?_⟩
  obtain hbody | ⟨fault, t, -, rfl, -⟩ := exists_of_recover hrun
  · exact hm.result s a s' hs hbody hend
  · exact h

end Gives

variable {E : Nat → Exits → Prop} (hE : Exits.Law E)

/-! ### Sequences and conditionals -/

section SameDepth

variable (hstmt : F.Gives depth (E depth) stmt)
include hE hstmt

lemma gives_statementsFrom (ends : List Kind) (fuel : Nat) (exits : Exits) (reported : Bool) :
    F.Gives depth (fun result => E depth exits → E depth result)
      (statementsFrom stmt ends fuel exits reported) := by
  induction fuel generalizing exits reported with
  | zero => exact .spent
  | succ fuel ih =>
      refine .after composed_kind fun here => ?_
      split
      · exact .pure id
      · refine .after composed_position fun start => .after composed_declarationAhead fun ahead => ?_
        refine .bind hstmt fun next => ?_
        split
        · exact (ih _ reported).mono fun _ h hnext hexits => h (hE.andThen hexits hnext)
        · split
          · exact (ih _ reported).mono fun _ h _ => h
          · refine .after steady_reportUnreachable.composed fun _ => ?_
            exact (ih _ true).mono fun _ h _ => h

lemma gives_statements (ends : List Kind) : F.Gives depth (E depth) (statements stmt ends) :=
  .after composed_bound fun fuel =>
    (gives_statementsFrom hE hstmt ends fuel _ false).mono fun _ h => h hE.passing

lemma gives_block : F.Gives depth (E depth) (block stmt) := by
  refine .require fun _ => .bind (gives_statements hE hstmt _) fun exits => ?_
  exact .require fun _ => .pure id

omit hE in
lemma gives_branchesFrom (fuel : Nat) (found : Branches) :
    F.Gives depth (fun result => (∀ b ∈ found.taken, E depth b) → ∀ b ∈ result.taken, E depth b)
      (branchesFrom stmt fuel found) := by
  induction fuel generalizing found with
  | zero => exact .spent
  | succ fuel ih =>
      refine .after composed_condition fun facts => .bind hstmt fun body => ?_
      have hadded (hbody : E depth body) (hfound : ∀ b ∈ found.taken, E depth b) :
          ∀ b ∈ (found.add facts body).taken, E depth b := by
        rw [Branches.add]
        split
        · exact hfound
        · exact List.forall_mem_append.mpr ⟨hfound, List.forall_mem_singleton.mpr hbody⟩
      refine .after composed_takes fun more => ?_
      split
      · exact (ih _).mono fun _ h hbody hfound => h (hadded hbody hfound)
      · exact .pure hadded

lemma gives_ifStatement : F.Gives depth (E depth) (ifStatement stmt) := by
  refine .require fun _ => .after composed_bound fun fuel => ?_
  refine .bind (gives_branchesFrom hstmt fuel {}) fun found => ?_
  refine .after composed_takes fun hasElse => ?_
  extract_lets rest
  have hrest : ∀ last, F.Gives depth (fun exits => E depth last →
      ((∀ b ∈ ({} : Branches).taken, E depth b) → ∀ b ∈ found.taken, E depth b) →
        E depth exits) (rest last) := by
    refine fun last => .pure fun hlast hfound => hE.alsoRaising _ (hE.oneOf ?_)
    rw [Branches.addLast]
    split
    · exact hfound (by simp)
    · exact List.forall_mem_append.mpr ⟨hfound (by simp), List.forall_mem_singleton.mpr hlast⟩
  split
  · exact .bind hstmt hrest
  · exact .bind (.pure hE.passing) hrest

/-! ### Groups of a switch -/

lemma gives_groupsFrom (fuel : Nat) (found : Groups) :
    F.Gives depth (fun result => (∀ b ∈ found.bodies, E depth b) → ∀ b ∈ result.bodies, E depth b)
      (groupsFrom stmt fuel found) := by
  induction fuel generalizing found with
  | zero => exact .spent
  | succ fuel ih =>
      refine .after composed_kind fun next => ?_
      split
      · exact .pure id
      · refine .bind ((yields_label found).gives composed_label) fun found' => ?_
        refine .after composed_takes fun isShort => ?_
        extract_lets rest
        have hrest : ∀ u, F.Gives depth (fun result => found'.bodies = found.bodies →
            (∀ b ∈ found.bodies, E depth b) → ∀ b ∈ result.bodies, E depth b) (rest u) := by
          intro u
          refine .bind (gives_statements hE hstmt _) fun exits => ?_
          refine (ih _).mono fun result h hexits hsame hfound => h ?_
          rw [hsame]
          exact List.forall_mem_append.mpr ⟨hfound, List.forall_mem_singleton.mpr hexits⟩
        split
        · exact hrest ()
        · exact .require fun _ => hrest ()

/-! ### Exceptions -/

lemma gives_catchClause :
    F.Gives depth (fun clause => E depth clause.body) (catchClause stmt) := by
  refine .require fun _ => .require fun _ => ?_
  refine .after composed_bound fun fuel => .after (composed_caughtTypes _) fun types => ?_
  refine .require fun name => .require fun _ => ?_
  refine .after steady_caughtType.composed fun type => ?_
  refine .after (.setVariable _ _ _ Extent.statement_ne) fun _ => ?_
  exact .bind (gives_block hE hstmt) fun body => .pure id

lemma gives_catchClauses (fuel : Nat) :
    F.Gives depth (fun clauses => ∀ clause ∈ clauses, E depth clause.body)
      (catchClauses stmt fuel) := by
  induction fuel with
  | zero => exact .spent
  | succ fuel ih =>
      refine .after composed_kind fun next => ?_
      split
      · refine .bind (gives_catchClause hE hstmt) fun first => .bind ih fun rest => .pure ?_
        exact fun hrest hfirst => List.forall_mem_cons.mpr ⟨hfirst, hrest⟩
      · exact .pure (by simp)

lemma gives_finalBlock? :
    F.Gives depth (fun last => ∀ exits ∈ last, E depth exits) (finalBlock? stmt) := by
  refine .after composed_takes fun hasFinal => ?_
  split
  · refine .bind (gives_block hE hstmt) fun body => .pure fun hbody exits hexits => ?_
    exact Option.mem_some_iff.mp hexits ▸ hbody
  · exact .pure (by simp)

lemma gives_tryStatement : F.Gives depth (E depth) (tryStatement stmt) := by
  refine .require fun keyword => .bind (gives_block hE hstmt) fun body => ?_
  refine .after composed_bound fun fuel => .bind (gives_catchClauses hE hstmt fuel) fun clauses => ?_
  refine .bind (gives_finalBlock? hE hstmt) fun last => ?_
  have hguarded : F.Gives depth (fun exits => (∀ exits ∈ last, E depth exits) →
      (∀ clause ∈ clauses, E depth clause.body) → E depth body → E depth exits)
      (classes >>= fun t => Pure.pure (.guarded t body clauses last)) :=
    .after steady_classes.composed fun t =>
      .pure fun hlast hclauses hbody => hE.guarded t hbody hclauses hlast
  split
  · refine .after composed_positionOf fun place => ?_
    exact .after (composed_fail (.misplaced _ _) _) fun _ => hguarded
  · exact hguarded

end SameDepth

/-! ### Loops and switches -/

include hE

lemma gives_loopExits (body : Exits) {truth : Option Bool} (start : Position) :
    F.Gives depth (fun exits => E (depth + 1) body → E depth exits) (loopExits body truth start) := by
  rw [loopExits]
  split
  · exact .after steady_reportUnreachable.composed fun _ => .pure fun _ => hE.passing
  · exact .pure (hE.loop truth)

section OneDeeper

variable (hstmt : F.Gives (depth + 1) (E (depth + 1)) stmt)
include hstmt

lemma gives_whileStatement : F.Gives depth (E depth) (whileStatement stmt) := by
  refine .require fun _ => .after composed_condition fun facts => ?_
  refine .after composed_position fun start => .bind hstmt.inLoop fun body => ?_
  refine .bind (gives_loopExits hE body start) fun exits => ?_
  exact .pure fun hexits hbody => hE.alsoRaising _ (hexits hbody)

lemma gives_doStatement : F.Gives depth (E depth) (doStatement stmt) := by
  refine .require fun _ => .bind hstmt.inLoop fun body => ?_
  refine .require fun _ => .after composed_condition fun facts => ?_
  exact .require fun _ => .pure fun hbody =>
    hE.alsoRaising _ (hE.doWhile _ hbody)

lemma gives_forStatement : F.Gives depth (E depth) (forStatement stmt) := by
  refine .require fun _ => .require fun _ => ?_
  refine .after composed_exprs fun first => .after composed_exprs fun conditions => ?_
  refine .after composed_exprs fun steps => .after composed_position fun start => ?_
  refine .bind hstmt.inLoop fun body => .bind (gives_loopExits hE body start) fun exits => ?_
  exact .pure fun hexits hbody => hE.alsoRaising _ (hexits hbody)

lemma gives_foreachStatement : F.Gives depth (E depth) (foreachStatement stmt) := by
  refine .require fun _ => .require fun _ => ?_
  refine .after composed_expr fun subject => .require fun _ => ?_
  refine .after steady_iterationTypes.composed fun types => ?_
  refine .after (composed_loopVariables Extent.statement_ne) fun _ => ?_
  refine .require fun _ => .bind hstmt.inLoop fun body => ?_
  exact .pure fun hbody => hE.alsoRaising _ (hE.loop none hbody)

/-- What comes out of a switch depends on its groups alone. -/
lemma gives_switchStatement {P : Exits → Prop}
    (hP : ∀ bodies hasDefault classes, (∀ b ∈ bodies, E (depth + 1) b) →
      P ((Exits.switch bodies hasDefault).alsoRaising classes)) :
    F.Gives depth P (switchStatement stmt) := by
  have hgroups : F.Gives (depth + 1) (fun found => ∀ b ∈ found.bodies, E (depth + 1) b)
      (bound >>= fun fuel => groupsFrom stmt fuel {}) :=
    .after composed_bound fun fuel =>
      (gives_groupsFrom hE hstmt fuel {}).mono fun _ h => h (by simp)
  refine .require fun _ => .after composed_condition fun subject => ?_
  refine .require fun _ => .bind hgroups.inLoop fun found => ?_
  exact .require fun _ => .pure (hP _ _ _)

end OneDeeper

/-! ### All statements -/

section All

variable (hbreak : ∀ depth, F.Gives depth (E depth) (jump .breaking))
  (hcontinue : ∀ depth, F.Gives depth (E depth) (jump .continuing))
  (hswitch : ∀ bound depth, F.Gives (depth + 1) (E (depth + 1)) (stmtWithin bound) →
    F.Gives depth (E depth) (switchStatement (stmtWithin bound)))
include hbreak hcontinue hswitch

lemma gives_byKind {bound : Nat} (hstmt : ∀ depth, F.Gives depth (E depth) (stmtWithin bound)) :
    F.Gives depth (E depth) (byKind (stmtWithin bound)) := by
  have hcomposed := composed_stmtWithin bound
  refine .after composed_kind fun next => ?_
  split
  · exact gives_block hE (hstmt _)
  · exact gives_ifStatement hE (hstmt _)
  · exact gives_whileStatement hE (hstmt _)
  · exact gives_doStatement hE (hstmt _)
  · exact gives_forStatement hE (hstmt _)
  · exact gives_foreachStatement hE (hstmt _)
  · exact hswitch bound depth (hstmt _)
  · exact hbreak depth
  · exact hcontinue depth
  · exact (yields_returnStatement hE).gives composed_returnStatement
  · exact (yields_throwStatement hE).gives composed_throwStatement
  · exact (yields_exitStatement hE).gives composed_exitStatement
  · exact gives_tryStatement hE (hstmt _)
  · exact (yields_echo hE).gives composed_echo
  · exact (yields_emptyStatement hE).gives composed_emptyStatement
  · exact (yields_functionStatement hE).gives (composed_functionStatement hcomposed)
  iterate 4 exact (yields_classStatement hE).gives (composed_classStatement hcomposed)
  · exact (yields_constStatement hE).gives (composed_constStatement Extent.statement_ne)
  · exact (yields_annotatedStatement hE).gives (composed_annotatedStatement hcomposed)
  · split
    · exact (yields_exprStatement hE).gives composed_exprStatement
    · exact ⟨composed_reject, fun _ _ _ _ hrun => nomatch hrun⟩

lemma gives_stmtWithin (bound depth : Nat) : F.Gives depth (E depth) (stmtWithin bound) := by
  induction bound generalizing depth with
  | zero => exact .spent
  | succ bound ih => exact .recover hE.passing (gives_byKind hE hbreak hcontinue hswitch ih)

lemma gives_stmt (depth : Nat) : F.Gives depth (E depth) Check.stmt :=
  .after composed_bound fun bound => gives_stmtWithin hE hbreak hcontinue hswitch bound depth

end All

end Frame

end ScriptCheck
