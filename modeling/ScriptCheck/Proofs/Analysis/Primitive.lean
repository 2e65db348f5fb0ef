import ScriptCheck.Proofs.Analysis.Reads

/-!
The steps that every part of the analysis uses read on.

Looking at the state changes nothing, a token that is required is consumed, reports and types only
add to the log and the cache, and what is run inside a routine, a class or a loop gives the context
back. After a fault, the passing over of a broken statement goes on from where the statement started
(`Runs.recover`).
-/

namespace ScriptCheck.Check

variable {α β : Type} {w : Extent} {n k : Nat} {m : Check α} {f : α → Check β} {s : State}

/-! ### Looking at the state -/

lemma get_run (s : State) : (get : Check State) s = .ok s s := rfl

lemma cursor_run (s : State) : cursor s = .ok s.cursor s := rfl

lemma kind_run (s : State) : kind s = .ok s.cursor.kind s := rfl

lemma classes_run (s : State) : classes s = .ok s.env.classes s := rfl

lemma peeks_get : Peeks (get : Check State) := fun s => ⟨s, rfl⟩

lemma peeks_cursor : Peeks cursor := fun s => ⟨s.cursor, rfl⟩

lemma peeks_current : Peeks current := fun s => ⟨s.cursor.current, rfl⟩

lemma peeks_kind : Peeks kind := fun s => ⟨s.cursor.kind, rfl⟩

lemma peeks_kindAhead (i : Nat) : Peeks (kindAhead i) := fun s => ⟨s.cursor.kindAhead i, rfl⟩

lemma peeks_position : Peeks position := fun s => ⟨s.cursor.position, rfl⟩

lemma peeks_bound : Peeks bound := fun s => ⟨s.cursor.remaining + 1, rfl⟩

lemma peeks_positionOf {token : Token} : Peeks (positionOf token) :=
  fun s => ⟨⟨token.start, s.cursor.file⟩, rfl⟩

lemma peeks_classes : Peeks classes := fun s => ⟨s.env.classes, rfl⟩

lemma peeks_className (id : ClassId) : Peeks (className id) :=
  fun s => ⟨s.env.classes.nameOf id, rfl⟩

lemma peeks_variableNamed? {name : String} : Peeks (variableNamed? name) :=
  fun s => ⟨s.scope.lookup name, rfl⟩

lemma peeks_accepts (target source : Ty) : Peeks (accepts target source) :=
  fun s => ⟨target.accepts s.env.classes s.options.strict source, rfl⟩

lemma peeks_classNamed? (name : String) : Peeks (classNamed? name) := by
  refine peeks_get.bind fun s => ?_
  split
  · exact .pure
  · split
    · exact .pure
    · exact .pure

attribute [grind ←] peeks_get peeks_cursor peeks_current peeks_kind peeks_kindAhead peeks_position
  peeks_bound peeks_positionOf peeks_classes peeks_className peeks_accepts peeks_classNamed?

/-- The kind at the cursor decides what is done next. -/
lemma Runs.kind {p : Prop} {f : Kind → Check β} (h : Runs w n p (f s.cursor.kind) s) :
    Runs w n p (kind >>= f) s :=
  .peek rfl h

lemma Runs.current {p : Prop} {f : Token → Check β} (h : Runs w n p (f s.cursor.current) s) :
    Runs w n p (current >>= f) s :=
  .peek rfl h

lemma Runs.cursor {p : Prop} {f : Cursor → Check β} (h : Runs w n p (f s.cursor) s) :
    Runs w n p (cursor >>= f) s :=
  .peek rfl h

/-- A bound taken from the tokens that are left is above their number. -/
lemma Runs.bound {p : Prop} {f : Nat → Check β} (h : ∀ r ≤ n, Runs w r p (f (r + 1)) s) :
    Runs w n p (bound >>= f) s := by
  intro hs hrem
  exact Runs.peek rfl (h _ hrem) hs le_rfl

lemma Reads.bound {f : Nat → Check β} (h : ∀ r ≤ n, Reads w r (f (r + 1))) :
    Reads w n (bound >>= f) :=
  fun s => .bound fun r hr => h r hr s

lemma Consumes.bound {f : Nat → Check β} (h : ∀ r ≤ n, Consumes w r (f (r + 1))) :
    Consumes w n (bound >>= f) :=
  fun s => .bound fun r hr => h r hr s

/-- A token that is known by its kind is not the end token. -/
lemma ne_eof_of_beq {kind known : Kind} (h : (kind == known) = true) (hknown : known ≠ .eof) :
    kind ≠ .eof :=
  (beq_iff_eq.mp h).symm ▸ hknown

/-! ### Faults -/

/-- A computation that always breaks off with a fault gives no result. -/
lemma Consumes.of_fault (h : ∀ s, ∃ fault, m s = .error (.fault fault) s) : Consumes w n m := by
  intro s hs _
  obtain ⟨fault, hfault⟩ := h s
  rw [hfault]
  exact ⟨.refl w s, hs⟩

lemma consumes_fail {cause : Cause} {position : Position} :
    Consumes w n (fail cause position : Check α) :=
  .of_fault fun _ => ⟨⟨cause, position⟩, rfl⟩

lemma consumes_reject : Consumes w n (reject : Check α) :=
  .of_fault fun s => ⟨s.cursor.rejection, rfl⟩

/-- The kind at the cursor decides what is read, and the end token is turned away. -/
lemma Consumes.byKind {f : Kind → Check β} (heof : f .eof = reject)
    (h : ∀ s, s.cursor.kind ≠ .eof → Runs w n True (f s.cursor.kind) s) :
    Consumes w n (Check.kind >>= f) := by
  intro s
  refine .kind ?_
  by_cases hk : s.cursor.kind = .eof
  · rw [hk, heof]
    exact consumes_reject s
  · exact h s hk

lemma consumes_rejectToken {token : Token} : Consumes w n (rejectToken token : Check α) :=
  .of_fault fun s => ⟨⟨.unexpectedToken token.value, ⟨token.start, s.cursor.file⟩⟩, rfl⟩

/-! ### Reading tokens -/

lemma proceeds_advance : Proceeds w n advance := by
  intro s hs _
  exact ⟨.move s.cursor.onward_advance, hs.advance, fun hk => Cursor.lt_advance_index hk⟩

lemma reads_advance : Reads w n advance := proceeds_advance.reads

lemma opens_advance : Opens w n advance := fun _ s _ => proceeds_advance s

lemma require_run (kind : Kind) (s : State) : require kind s = match s.cursor.pass? kind with
    | some next => .ok s.cursor.current { s with cursor := next }
    | none => .error (.fault (s.cursor.missing kind)) s := by
  rw [require, bind_of_ok (cursor_run s)]
  cases s.cursor.pass? kind <;> rfl

lemma takes_run (kind : Kind) (s : State) : takes kind s = match s.cursor.pass? kind with
    | some next => .ok true { s with cursor := next }
    | none => .ok false s := by
  rw [takes, bind_of_ok (cursor_run s)]
  cases s.cursor.pass? kind <;> rfl

lemma require_of_kind {kind : Kind} (h : s.cursor.kind = kind) :
    require kind s = .ok s.cursor.current { s with cursor := s.cursor.advance } := by
  rw [require_run, Cursor.pass?, if_pos (beq_iff_eq.mpr h)]

lemma require_of_ne {kind : Kind} (h : s.cursor.kind ≠ kind) :
    require kind s = .error (.fault (s.cursor.missing kind)) s := by
  rw [require_run, Cursor.pass?, if_neg (by simpa using h)]

lemma require_ok {kind : Kind} {s s' : State} {token : Token} (h : require kind s = .ok token s') :
    s.cursor.kind = kind ∧ s' = { s with cursor := s.cursor.advance } := by
  by_cases hkind : s.cursor.kind = kind
  · rw [require_of_kind hkind] at h
    cases h
    exact ⟨hkind, rfl⟩
  · rw [require_of_ne hkind] at h
    cases h

lemma takes_of_kind {kind : Kind} (h : s.cursor.kind = kind) :
    takes kind s = .ok true { s with cursor := s.cursor.advance } := by
  rw [takes_run, Cursor.pass?, if_pos (beq_iff_eq.mpr h)]

lemma takes_of_ne {kind : Kind} (h : s.cursor.kind ≠ kind) : takes kind s = .ok false s := by
  rw [takes_run, Cursor.pass?, if_neg (by simpa using h)]

/-- Where the token or the one that is required is not the end token, the cursor moves. -/
lemma runs_require (kind : Kind) (s : State) :
    Runs w n (s.cursor.kind ≠ .eof ∨ kind ≠ .eof) (require kind) s := by
  intro hs _
  by_cases hkind : s.cursor.kind = kind
  · rw [require_of_kind hkind]
    refine ⟨.move s.cursor.onward_advance, hs.advance, fun hne => Cursor.lt_advance_index ?_⟩
    rcases hne with hne | hne
    · exact hne
    · exact hkind ▸ hne
  · rw [require_of_ne hkind]
    exact ⟨.refl w s, hs⟩

lemma consumes_require (kind : Kind) (h : kind ≠ .eof) : Consumes w n (require kind) :=
  fun s => (runs_require kind s).mono le_rfl fun _ => Or.inr h

lemma opens_require {kind : Kind} : Opens w n (require kind) :=
  fun _ s _ => (runs_require kind s).mono le_rfl Or.inl

lemma reads_takes {kind : Kind} : Reads w n (takes kind) := by
  intro s hs _
  by_cases hkind : s.cursor.kind = kind
  · rw [takes_of_kind hkind]
    exact ⟨.move s.cursor.onward_advance, hs.advance, False.elim⟩
  · rw [takes_of_ne hkind]
    exact ⟨.refl w s, hs, False.elim⟩

lemma passBlock_run (s : State) : passBlock s = match s.cursor.passBlock.1 with
    | .ok () => .ok () { s with cursor := s.cursor.passBlock.2 }
    | .error fault => .error (.fault fault) { s with cursor := s.cursor.passBlock.2 } := by
  rw [passBlock, bind_of_ok (cursor_run s)]
  rcases s.cursor.passBlock with ⟨result, c⟩
  cases result <;> rfl

lemma consumes_passBlock : Consumes w n passBlock := by
  intro s hs _
  obtain ⟨honward, hproper, hlt⟩ := hs.passBlock
  rw [passBlock_run]
  revert hlt
  cases s.cursor.passBlock.1 with
  | ok u => exact fun hlt => ⟨.move honward, hproper, fun _ => hlt rfl⟩
  | error fault => exact fun _ => ⟨.move honward, hproper⟩

/-! ### Reports, types and variables -/

lemma reads_report {cause : Cause} {position : Position} : Reads w n (report cause position) := by
  intro s hs _
  exact ⟨{ Change.refl w s with log := Log.entries_prefix_add _ _ }, hs, False.elim⟩

section Steps

variable {kind : Kind} {token : Token} {cause : Cause} {p : Position}

lemma Reads.onKind {f : Kind → Check β} (hf : ∀ a, Reads w n (f a)) : Reads w n (Check.kind >>= f) :=
  peeks_kind.reads.bind hf

lemma Reads.positionOf {f : Position → Check β} (hf : ∀ a, Reads w n (f a)) :
    Reads w n (Check.positionOf token >>= f) :=
  peeks_positionOf.reads.bind hf

lemma Reads.advance {f : Token → Check β} (hf : ∀ a, Reads w n (f a)) :
    Reads w n (Check.advance >>= f) :=
  reads_advance.bind hf

lemma Reads.require {f : Token → Check β} (hf : ∀ a, Reads w n (f a)) :
    Reads w n (Check.require kind >>= f) :=
  opens_require.reads.bind hf

lemma Reads.takes {f : Bool → Check β} (hf : ∀ a, Reads w n (f a)) :
    Reads w n (Check.takes kind >>= f) :=
  reads_takes.bind hf

lemma Reads.report {f : Unit → Check β} (hf : ∀ a, Reads w n (f a)) :
    Reads w n (Check.report cause p >>= f) :=
  reads_report.bind hf

end Steps

lemma compile_run (descriptor : String) (s : State) : compile descriptor s =
    .ok ((s.types.compile s.env.classes descriptor).1.map (·.type))
      { s with types := (s.types.compile s.env.classes descriptor).2 } := rfl

/-- Compiling a type changes the cache only. -/
lemma typeOf_run (descriptor : String) (s : State) : ∃ type, typeOf descriptor s =
    .ok type { s with types := (s.types.compile s.env.classes descriptor).2 } := by
  rw [typeOf, bind_of_ok (compile_run descriptor s)]
  cases (s.types.compile s.env.classes descriptor).1 with
  | ok made => exact ⟨made.type, rfl⟩
  | error e => exact ⟨.mixed, rfl⟩

/-- A variable that is declared is the only one of its name. -/
lemma lookup_declare (scope : List (String × Variable)) (name other : String) (v : Variable) :
    ((name, v) :: scope.filter (·.1 != name)).lookup other =
      if other = name then some v else scope.lookup other := by
  by_cases h : other = name
  · simp [h]
  · have hbeq : (other == name) = false := beq_false_of_ne h
    have hfilter : (scope.filter (·.1 != name)).lookup other = scope.lookup other := by
      induction scope with
      | nil => rfl
      | cons entry scope ih =>
          obtain ⟨key, u⟩ := entry
          by_cases hkey : key = name
          · simp [hkey, hbeq, List.lookup_cons, ih]
          · simp [hkey, List.lookup_cons, ih]
    simp [h, hbeq, List.lookup_cons, hfilter]

lemma reads_modifyEnv {g : Env → Env} : Reads .statement n (modifyEnv g) := by
  intro s hs _
  exact ⟨{ Change.refl .statement s with
    env := fun hw => nomatch hw }, hs, False.elim⟩

/-- An expression may declare a variable that is new. -/
lemma runs_setVariable {name : String} (h : s.scope.lookup name = none) (type : Ty)
    (isAnnotated : Bool) : Runs w n False (setVariable name type isAnnotated) s := by
  refine fun hs _ => ⟨{ Change.refl w s with scope := fun _ other v hv => ?_ }, hs, False.elim⟩
  have hne : other ≠ name := by
    rintro rfl
    rw [h] at hv
    cases hv
  rw [← hv]
  exact (lookup_declare _ _ _ _).trans (if_neg hne)

/-! ### Contexts and recovery -/

/-- What is run in a changed context reads on, if only the context is changed and given back. -/
lemma Reads.within {enter : State → State} {leave : State → State → State}
    (hcursor : ∀ s, (enter s).cursor = s.cursor)
    (hleave : ∀ s s', Change .statement (enter s) s' → Change .statement s (leave s s'))
    (hleft : ∀ s s', (leave s s').cursor = s'.cursor) (h : Reads .statement n m) :
    Reads .statement n (within enter leave m) := by
  intro s hs hrem
  have hbody := h (enter s) (by rwa [hcursor]) (by rwa [hcursor])
  rw [Check.within]
  revert hbody
  cases m (enter s) with
  | ok a s' =>
      rintro ⟨hchange, hproper, -⟩
      exact ⟨hleave s s' hchange, by rwa [hleft], False.elim⟩
  | error e s' =>
      cases e with
      | fault fault =>
          rintro ⟨hchange, hproper⟩
          exact ⟨hleave s s' hchange, by rwa [hleft]⟩
      | spent => exact id

lemma Reads.inRoutine {routine : Routine} (h : Reads .statement n m) :
    Reads .statement n (inRoutine routine m) := by
  refine h.within (fun _ => rfl) (fun s s' hc => ?_) fun _ _ => rfl
  exact ⟨hc.cursor, hc.options, rfl, rfl, rfl, hc.log, hc.types, nofun, nofun, nofun⟩

lemma Reads.inClass {id : ClassId} (h : Reads .statement n m) :
    Reads .statement n (inClass id m) := by
  refine h.within (fun _ => rfl) (fun s s' hc => ?_) fun _ _ => rfl
  exact ⟨hc.cursor, hc.options, hc.routine, rfl, hc.loopDepth, hc.log, hc.types, nofun, nofun,
    nofun⟩

lemma Reads.inLoop (h : Reads .statement n m) : Reads .statement n (inLoop m) := by
  refine h.within (fun _ => rfl) (fun s s' hc => ?_) fun _ _ => rfl
  exact ⟨hc.cursor, hc.options, hc.routine, hc.inClass, rfl, hc.log, hc.types, nofun, nofun,
    nofun⟩

/-- After a fault the broken statement is passed over; unless it started at the end, at least one
token of it is. -/
lemma Runs.recover {p : Prop} {fallback : α} (h : Runs w n p m s) :
    Runs w n (p ∧ s.cursor.kind ≠ .eof) (recover fallback m) s := by
  intro hs hrem
  have hbody := h hs hrem
  rw [Check.recover]
  revert hbody
  cases m s with
  | ok a s' => exact fun hbody => ⟨hbody.1, hbody.2.1, fun hp => hbody.2.2 hp.1⟩
  | error e s' =>
      cases e with
      | spent => exact id
      | fault fault =>
          rintro ⟨hchange, hproper⟩
          obtain ⟨honward, hresumed⟩ := hproper.resume s.cursor.index
          refine ⟨?_, hresumed, fun hp => ?_⟩
          · refine hchange.trans ?_
            exact { Change.refl w s' with
              cursor := honward
              log := Log.entries_prefix_add _ _ }
          · -- a cursor that did not move is still on the first token of the statement
            refine Cursor.lt_resume_index hchange.cursor.le fun heq => ?_
            have hsame : s'.cursor = s.cursor := hchange.cursor.eq_of_index heq
            rw [hsame]
            exact hp.2

lemma Reads.recover {fallback : α} (h : Reads w n m) : Reads w n (recover fallback m) :=
  fun s => (h s).recover.mono le_rfl False.elim

lemma Consumes.recover {fallback : α} (h : Consumes w n m) : Proceeds w n (recover fallback m) :=
  fun s => (h s).recover.mono le_rfl fun hk => ⟨trivial, hk⟩

end ScriptCheck.Check
