import ScriptCheck.Analysis.State
import ScriptCheck.Proofs.Token.Progress

/-!
Computations that read on.

`Runs` says of a computation, started in a state with a proper cursor and at most `n` tokens left,
that it does not run out of depth, that it changes the state only as a part of its extent may
(`Change`), that the cursor stays proper, and that it moves if a result is given and a condition
holds. Instances of it are used for the readers of all constructs:

* `Reads`: the cursor does not go back;
* `Proceeds`: a result given elsewhere than at the end moved the cursor;
* `Opens`: the same of a reader that reads a token before its parts;
* `Consumes`: every result moved the cursor.

Readers are put together with one rule for each way of composing them (`Reads.bind`,
`Consumes.bind`, `Runs.peek`, ...). A reader that has consumed a token leaves one token less to
those that follow, which is what makes the bounds on depth enough.
-/

namespace ScriptCheck

/-! ### Changes of the state -/

/-- How much of the state a computation may change: an expression leaves what is known by name as it
is and declares only new variables, a declaration runs no code, so that it finds none that is never
run, and only a file is read from its start again. -/
inductive Extent where
  | expression
  | declaration
  | statement
  | file

/-- The statements inside are run. -/
abbrev Extent.RunsCode (w : Extent) : Prop := w = .statement ∨ w = .file

lemma Extent.declaration_ne : Extent.declaration ≠ .expression := nofun

lemma Extent.statement_ne : Extent.statement ≠ .expression := nofun

lemma Extent.file_ne : Extent.file ≠ .expression := nofun

/-- What stays as it was, and what was only added to. -/
structure Change (w : Extent) (s s' : State) : Prop where
  cursor : s.cursor.Onward s'.cursor
  options : s'.options = s.options
  routine : s'.routine = s.routine
  inClass : s'.inClass = s.inClass
  loopDepth : s'.loopDepth = s.loopDepth
  log : s.log.entries <+: s'.log.entries
  types : s.types.entries <+: s'.types.entries
  env : w = .expression → s'.env = s.env
  checked : w = .expression → s'.checked = s.checked
  scope : w = .expression → ∀ name v, s.scope.lookup name = some v → s'.scope.lookup name = some v

namespace Change

variable {w : Extent} {s s' s'' : State}

lemma refl (w : Extent) (s : State) : Change w s s where
  cursor := .refl _
  options := rfl
  routine := rfl
  inClass := rfl
  loopDepth := rfl
  log := List.prefix_refl _
  types := List.prefix_refl _
  env := fun _ => rfl
  checked := fun _ => rfl
  scope := fun _ _ _ h => h

lemma trans (h : Change w s s') (h' : Change w s' s'') : Change w s s'' where
  cursor := h.cursor.trans h'.cursor
  options := h'.options.trans h.options
  routine := h'.routine.trans h.routine
  inClass := h'.inClass.trans h.inClass
  loopDepth := h'.loopDepth.trans h.loopDepth
  log := h.log.trans h'.log
  types := h.types.trans h'.types
  env := fun hw => (h'.env hw).trans (h.env hw)
  checked := fun hw => (h'.checked hw).trans (h.checked hw)
  scope := fun hw name v hv => h'.scope hw name v (h.scope hw name v hv)

lemma move {c : Cursor} (hc : s.cursor.Onward c) : Change w s { s with cursor := c } :=
  { refl w s with cursor := hc }

/-- A cursor that has moved has one token less left. -/
lemma remaining_le {n k : Nat} (h : Change w s s') (hs : s.cursor.IsProper)
    (hrem : s.cursor.remaining ≤ n)
    (hn : n ≤ k ∨ (s.cursor.index < s'.cursor.index ∧ n ≤ k + 1)) : s'.cursor.remaining ≤ k := by
  have hinside := hs.inside
  have hle := h.cursor.le
  rw [Cursor.remaining] at hrem ⊢
  rw [h.cursor.tokens]
  omega

end Change

/-- A log is only added to. -/
lemma Log.entries_prefix_add (log : Log) (d : Diagnostic) :
    log.entries <+: (log.add d).entries := by
  rw [Log.add]
  split
  · exact List.prefix_refl _
  · exact List.prefix_append _ _

/-- An error is never too slight to be kept. -/
lemma Log.ofFault_mem_addFault {fault : Fault} (log : Log) (h : fault.cause.severity = .error) :
    .ofFault fault ∈ (log.addFault fault).entries := by
  rw [Log.addFault, Log.add]
  split
  case isTrue hdropped =>
    have hslight : ¬ (Diagnostic.ofFault fault).severity.rank < log.least.rank := by
      show ¬ fault.cause.severity.rank < log.least.rank
      rw [h]
      cases log.least <;> decide
    simpa [hslight] using hdropped
  case isFalse => exact List.mem_append_right _ (List.mem_singleton_self _)

namespace TypeCache

lemma entries_prefix_bind {cache : TypeCache} {descriptor : String} {made : Interned} :
    cache.entries <+: (cache.bind descriptor made).entries := by
  rw [TypeCache.bind]
  split
  · exact List.prefix_refl _
  · exact List.prefix_append _ _

lemma entries_prefix_intern (cache : TypeCache) (descriptor : String) (type : Ty)
    (element : Option Nat) :
    cache.entries <+: (cache.intern descriptor type element).2.entries := by
  rw [intern]
  split
  · exact List.prefix_refl _
  · exact List.prefix_append _ _

lemma entries_prefix_nest (cache : TypeCache) (name : List Char) (base : Interned)
    (tags : List Keys) : cache.entries <+: (cache.nest name base tags).2.entries := by
  induction tags with
  | nil => exact List.prefix_refl _
  | cons key tags ih => exact ih.trans (entries_prefix_intern _ _ _ _)

lemma entries_prefix_compileParsed {cache cache' : TypeCache} {t : ClassTable} {name : List Char}
    {tags : List Keys} {made : Interned}
    (h : cache.compileParsed t name tags = some (made, cache')) :
    cache.entries <+: cache'.entries := by
  rw [compileParsed] at h
  dsimp only at h
  split at h
  case h_1 base _ =>
    have hnest := cache.entries_prefix_nest name base tags
    rwa [Option.some.inj h] at hnest
  case h_2 =>
    split at h
    · exact absurd h (by simp)
    case h_2 type _ =>
      have hbase := entries_prefix_intern cache (String.ofList name) type none
      have hnest := entries_prefix_nest (cache.intern (String.ofList name) type none).2 name
        (cache.intern (String.ofList name) type none).1 tags
      rw [Option.some.inj h] at hnest
      exact hbase.trans hnest

/-- A cache is only added to. -/
lemma entries_prefix_compile (cache : TypeCache) (t : ClassTable) (descriptor : String) :
    cache.entries <+: (cache.compile t descriptor).2.entries := by
  rw [compile]
  split
  · exact List.prefix_refl _
  · dsimp only
    split
    · exact List.prefix_refl _
    · split
      · exact List.prefix_refl _
      case h_2 h => exact (entries_prefix_compileParsed h).trans entries_prefix_bind

end TypeCache

namespace Check

variable {α β : Type} {w : Extent} {n k : Nat} {m : Check α} {f : α → Check β} {s : State}

/-! ### Runs of sequences -/

lemma bind_of_ok {a : α} {s' : State} (h : m s = .ok a s') : (m >>= f) s = f a s' := by
  show EStateM.bind m f s = f a s'
  rw [EStateM.bind, h]

lemma bind_of_error {e : Halt} {s' : State} (h : m s = .error e s') :
    (m >>= f) s = .error e s' := by
  show EStateM.bind m f s = .error e s'
  rw [EStateM.bind, h]

/-- A result of a sequence comes from a result of its first part. -/
lemma exists_of_bind {b : β} {s'' : State} (h : (m >>= f) s = .ok b s'') :
    ∃ a s', m s = .ok a s' ∧ f a s' = .ok b s'' := by
  cases hrun : m s with
  | ok a s' => exact ⟨a, s', rfl, (bind_of_ok hrun).symm.trans h⟩
  | error e s' => cases (bind_of_error hrun).symm.trans h

/-! ### Computations that read on -/

/-- Started at a proper cursor with at most so many tokens left, the computation does not run out of
depth and keeps to its extent; a result that is given moved the cursor if the condition holds. -/
def Runs (w : Extent) (n : Nat) (strict : Prop) (m : Check α) (s : State) : Prop :=
  s.cursor.IsProper → s.cursor.remaining ≤ n →
    match m s with
    | .ok _ s' =>
        Change w s s' ∧ s'.cursor.IsProper ∧ (strict → s.cursor.index < s'.cursor.index)
    | .error (.fault _) s' => Change w s s' ∧ s'.cursor.IsProper
    | .error .spent _ => False

/-- The cursor does not go back. -/
def Reads (w : Extent) (n : Nat) (m : Check α) : Prop := ∀ s, Runs w n False m s

/-- A result given elsewhere than at the end moved the cursor. -/
def Proceeds (w : Extent) (n : Nat) (m : Check α) : Prop :=
  ∀ s, Runs w n (s.cursor.kind ≠ .eof) m s

/-- Every result moved the cursor. -/
def Consumes (w : Extent) (n : Nat) (m : Check α) : Prop := ∀ s, Runs w n True m s

/-- The computation proceeds, and reads a token before anything else, so that elsewhere than at the
end one token more may be left than its parts are known to read. -/
def Opens (w : Extent) (n : Nat) (m : Check α) : Prop :=
  ∀ k s, k ≤ n ∨ (s.cursor.kind ≠ .eof ∧ k ≤ n + 1) → Runs w k (s.cursor.kind ≠ .eof) m s

/-- The computation only looks at the state. -/
def Peeks (m : Check α) : Prop := ∀ s, ∃ a, m s = .ok a s

lemma Runs.mono {p q : Prop} (h : Runs w n p m s) (hk : k ≤ n) (hq : q → p) : Runs w k q m s := by
  intro hs hrem
  have := h hs (hrem.trans hk)
  revert this
  cases m s with
  | ok a s' => exact fun h => ⟨h.1, h.2.1, fun hp => h.2.2 (hq hp)⟩
  | error e s' =>
      cases e with
      | fault fault => exact id
      | spent => exact id

lemma Consumes.proceeds (h : Consumes w n m) : Proceeds w n m :=
  fun s => (h s).mono le_rfl fun _ => trivial

lemma Proceeds.reads (h : Proceeds w n m) : Reads w n m :=
  fun s => (h s).mono le_rfl False.elim

lemma Consumes.reads (h : Consumes w n m) : Reads w n m := h.proceeds.reads

lemma Reads.le (h : Reads w n m) (hk : k ≤ n) : Reads w k m := fun s => (h s).mono hk id

lemma Proceeds.le (h : Proceeds w n m) (hk : k ≤ n) : Proceeds w k m := fun s => (h s).mono hk id

lemma Consumes.le (h : Consumes w n m) (hk : k ≤ n) : Consumes w k m := fun s => (h s).mono hk id

/-- A proper cursor has a token left, so there is nothing to show for none. -/
lemma Runs.zero {p : Prop} : Runs w 0 p m s := by
  intro hs hrem
  have := hs.one_le_remaining
  omega

/-- Elsewhere than at the end, going on is moving. -/
lemma Proceeds.runs (h : Proceeds w n m) (hk : s.cursor.kind ≠ .eof) {p : Prop} : Runs w n p m s :=
  (h s).mono le_rfl fun _ => hk

lemma Opens.proceeds (h : Opens w n m) : Proceeds w n m := fun s => h n s (Or.inl le_rfl)

lemma Opens.reads (h : Opens w n m) : Reads w n m := h.proceeds.reads

lemma Opens.runs (h : Opens w n m) (hk : s.cursor.kind ≠ .eof) {p : Prop} : Runs w (n + 1) p m s :=
  (h (n + 1) s (Or.inr ⟨hk, le_rfl⟩)).mono le_rfl fun _ => hk

lemma Consumes.opens (h : Consumes w (n + 1) m) : Opens w n m := by
  intro k s hn
  exact (h s).mono (by omega) fun _ => trivial

/-! ### Composition -/

/-- One computation after another. Of the state in between it is known how the first came to it, and
the second starts with the tokens that are left there. -/
lemma Runs.bind_of_change {p q r : Prop} (hm : Runs w n p m s)
    (hf : ∀ a s', m s = .ok a s' → Change w s s' → (p → s.cursor.index < s'.cursor.index) →
      Runs w s'.cursor.remaining q (f a) s')
    (hr : r → p ∨ q) : Runs w n r (m >>= f) s := by
  intro hs hrem
  have hfirst := hm hs hrem
  cases hrun : m s with
  | error e s' =>
      rw [hrun] at hfirst
      rw [bind_of_error hrun]
      cases e <;> exact hfirst
  | ok a s' =>
      rw [hrun] at hfirst
      rw [bind_of_ok hrun]
      obtain ⟨hchange, hs', hlt⟩ := hfirst
      have hsecond := hf a s' hrun hchange hlt hs' le_rfl
      revert hsecond
      cases f a s' with
      | error e s'' =>
          cases e with
          | fault fault => exact fun h => ⟨hchange.trans h.1, h.2⟩
          | spent => exact id
      | ok b s'' =>
          rintro ⟨hchange', hs'', hlt'⟩
          refine ⟨hchange.trans hchange', hs'', fun hr' => ?_⟩
          rcases hr hr' with hp | hq
          · exact lt_of_lt_of_le (hlt hp) hchange'.cursor.le
          · exact lt_of_le_of_lt hchange.cursor.le (hlt' hq)

/-- One computation after another. The second starts with the tokens that the first left, one less
if the first moved. -/
lemma Runs.bind_runs {p q r : Prop} (hm : Runs w n p m s) (hf : ∀ a s', Runs w k q (f a) s')
    (hn : n ≤ k ∨ (p ∧ n ≤ k + 1)) (hr : r → p ∨ q) : Runs w n r (m >>= f) s := by
  intro hs hrem
  refine hm.bind_of_change (fun a s' _ hchange hlt => (hf a s').mono ?_ id) hr hs hrem
  exact hchange.remaining_le hs hrem (hn.imp_right fun h => ⟨hlt h.1, h.2⟩)

lemma Runs.bind {p : Prop} (hm : Runs w n p m s) (hf : ∀ a, Reads w n (f a)) :
    Runs w n p (m >>= f) s :=
  hm.bind_runs (fun a => hf a) (Or.inl le_rfl) Or.inl

/-- After a token was consumed there is one less. -/
lemma Runs.bind_succ (hm : Runs w (n + 1) True m s) (hf : ∀ a, Reads w n (f a)) {p : Prop} :
    Runs w (n + 1) p (m >>= f) s :=
  hm.bind_runs (fun a => hf a) (Or.inr ⟨trivial, le_rfl⟩) fun _ => Or.inl trivial

lemma Reads.bind (hm : Reads w n m) (hf : ∀ a, Reads w n (f a)) : Reads w n (m >>= f) :=
  fun s => (hm s).bind hf

lemma Consumes.bind (hm : Consumes w n m) (hf : ∀ a, Reads w n (f a)) : Consumes w n (m >>= f) :=
  fun s => (hm s).bind hf

lemma Consumes.bind_succ (hm : Consumes w (n + 1) m) (hf : ∀ a, Reads w n (f a)) :
    Consumes w (n + 1) (m >>= f) :=
  fun s => (hm s).bind_succ hf

lemma Proceeds.bind (hm : Proceeds w n m) (hf : ∀ a, Reads w n (f a)) : Proceeds w n (m >>= f) :=
  fun s => (hm s).bind hf

lemma Opens.bind (hm : Opens w n m) (hf : ∀ a, Reads w n (f a)) : Opens w n (m >>= f) :=
  fun k s hn => (hm k s hn).bind_runs (fun a => hf a) hn Or.inl

lemma Reads.bind_consumes (hm : Reads w n m) (hf : ∀ a, Consumes w n (f a)) :
    Consumes w n (m >>= f) :=
  fun s => (hm s).bind_runs (fun a => hf a) (Or.inl le_rfl) fun _ => Or.inr trivial

lemma Reads.pure {a : α} : Reads w n (Pure.pure a : Check α) :=
  fun s hs _ => ⟨.refl w s, hs, False.elim⟩

/-- What is looked up in the state is that of the state. -/
lemma Runs.peek {p : Prop} {a : α} (hm : m s = .ok a s) (hf : Runs w n p (f a) s) :
    Runs w n p (m >>= f) s := by
  intro hs hrem
  have := hf hs hrem
  rwa [bind_of_ok hm]

lemma Peeks.reads (h : Peeks m) : Reads w n m := by
  intro s hs _
  obtain ⟨a, ha⟩ := h s
  rw [ha]
  exact ⟨.refl w s, hs, False.elim⟩

lemma Peeks.bind (hm : Peeks m) (hf : ∀ a, Peeks (f a)) : Peeks (m >>= f) := by
  intro s
  obtain ⟨a, ha⟩ := hm s
  obtain ⟨b, hb⟩ := hf a s
  exact ⟨b, (bind_of_ok ha).trans hb⟩

lemma Peeks.pure {a : α} : Peeks (Pure.pure a : Check α) := fun _ => ⟨a, rfl⟩

lemma Reads.map (g : α → β) (h : Reads w n m) : Reads w n (g <$> m) := by
  intro s hs hrem
  have hm := h s hs hrem
  show match EStateM.map g m s with
    | .ok _ s' => _
    | .error (.fault _) s' => _
    | .error .spent _ => _
  rw [EStateM.map]
  revert hm
  cases m s with
  | ok a s' => exact id
  | error e s' =>
      cases e with
      | fault fault => exact id
      | spent => exact id

end Check

end ScriptCheck
