import ScriptCheck.Proofs.Expression.Spells

/-!
Readers of given symbols.

`Parses` says of a computation that, started where given symbols stand, it gives a result of a given
sort, has read exactly these symbols, and has reported nothing but unreachable code and uses of
`$this` outside of classes. The kind of the token that follows the symbols matters to readers that
look ahead, so it is constrained as well. Readers are put together with one rule for each step:
`Parses.bind` for a part with symbols of its own, `Parses.require` and others for single tokens,
`Parses.silent` for steps that read nothing. What `Spells` says of steps that only read and compile
types holds in every setting (`Spells.parses`).
-/

namespace ScriptCheck

/-! ### Settings and states -/

/-- A state that a setting describes, outside of routines. -/
structure Setting.Fits (Γ : Setting) (s : State) : Prop where
  routine : s.routine = none
  classes : s.env.classes = Γ.classes
  classNamed? : s.classNamed? = Γ.classNamed?
  declared : ∀ name ∈ Γ.declared, (s.scope.lookup name).isSome
  depth : s.loopDepth = Γ.depth

lemma Setting.fits_ofState {s : State} (h : s.routine = none) : (Setting.ofState s).Fits s := by
  refine ⟨h, rfl, rfl, fun name hname => ?_, rfl⟩
  obtain ⟨entry, hentry, rfl⟩ := List.mem_map.mp hname
  rw [Option.isSome_iff_ne_none]
  intro hnone
  simpa using List.lookup_eq_none_iff.mp hnone entry hentry

lemma Setting.Fits.move {Γ : Setting} {s : State} {c : Cursor} {types : TypeCache} (h : Γ.Fits s) :
    Γ.Fits { s with cursor := c, types := types } :=
  ⟨h.routine, h.classes, h.classNamed?, h.declared, h.depth⟩

/-- Reports that are no mistakes of the grammar: of code that is never run, and of `$this` where
there is no object. -/
def Diagnostic.IsHarmless (d : Diagnostic) : Prop :=
  ∃ position, d = .ofFault ⟨.unreachableCode, position⟩ ∨
    d = .ofFault ⟨.undeclaredVariable "this", position⟩

/-- The second state is reached by reading so many tokens, with harmless reports. -/
structure Passed (n : Nat) (s s' : State) : Prop where
  cursor : s'.cursor = s.cursor.past n
  log : ∃ added, s'.log.entries = s.log.entries ++ added ∧ ∀ d ∈ added, d.IsHarmless

namespace Passed

variable {m n : Nat} {s s' s'' : State}

/-- The cursor may move without a report. -/
lemma quiet (hcursor : s'.cursor = s.cursor.past n) (hlog : s'.log = s.log) : Passed n s s' :=
  ⟨hcursor, [], by rw [hlog, List.append_nil], List.forall_mem_nil _⟩

lemma refl (s : State) : Passed 0 s s := .quiet rfl rfl

lemma trans (h : Passed m s s') (h' : Passed n s' s'') : Passed (m + n) s s'' := by
  obtain ⟨added, hadded, hharmless⟩ := h.log
  obtain ⟨added', hadded', hharmless'⟩ := h'.log
  refine ⟨by rw [h'.cursor, h.cursor, Cursor.past_past], added ++ added', ?_, ?_⟩
  · rw [hadded', hadded, List.append_assoc]
  · intro d hd
    rcases List.mem_append.mp hd with hd | hd
    · exact hharmless d hd
    · exact hharmless' d hd

end Passed

namespace Check

variable {α β : Type} {Γ Γ₁ Γ₂ : Setting} {m : Check α} {f : α → Check β} {x : Symbol}
  {xs ys : List Symbol} {F G : Kind → Prop} {P : α → Prop} {Q : β → Prop} {s : State}

/-! ### Readers of given symbols -/

/-- In a state that fits the first setting, before the symbols and a token of a kind as given, the
computation gives a result as given; it has read the symbols, and the state fits the second
setting. -/
def Parses (Γ Γ' : Setting) (m : Check α) (symbols : List Symbol) (next : Kind → Prop)
    (result : α → Prop) : Prop :=
  ∀ s, Γ.Fits s → symbols <+: s.cursor.symbols → next (s.cursor.past symbols.length).kind →
    ∃ a s', m s = .ok a s' ∧ result a ∧ Γ'.Fits s' ∧ Passed symbols.length s s'

lemma Parses.mono {P' : α → Prop} (h : Parses Γ Γ₁ m xs F P) (hG : ∀ kind, G kind → F kind)
    (hP : ∀ a, P a → P' a) : Parses Γ Γ₁ m xs G P' := by
  intro s hs hxs hnext
  obtain ⟨a, s', hrun, ha, hs', hpassed⟩ := h s hs hxs (hG _ hnext)
  exact ⟨a, s', hrun, hP a ha, hs', hpassed⟩

lemma Parses.pure {a : α} (h : P a) : Parses Γ Γ (Pure.pure a : Check α) [] F P :=
  fun s hs _ _ => ⟨a, s, rfl, h, hs, .refl s⟩

/-- A part with symbols of its own, and what follows it. -/
lemma Parses.bind (hm : Parses Γ Γ₁ m xs F P) (hnext : Leads F G ys)
    (hf : ∀ a, P a → Parses Γ₁ Γ₂ (f a) ys G Q) : Parses Γ Γ₂ (m >>= f) (xs ++ ys) G Q := by
  intro s hs hxs hG
  have hrest : ys <+: (s.cursor.past xs.length).symbols := Cursor.prefix_symbols_past hxs
  have hG' : G ((s.cursor.past xs.length).past ys.length).kind := by
    rwa [Cursor.past_past, ← List.length_append]
  obtain ⟨a, s', hrun, ha, hs', hpassed⟩ :=
    hm s hs ((List.prefix_append xs ys).trans hxs) (hnext.kind hrest hG')
  obtain ⟨b, s'', hrun', hb, hs'', hpassed'⟩ := hf a ha s' hs'
    (by rwa [hpassed.cursor]) (by rwa [hpassed.cursor])
  refine ⟨b, s'', (bind_of_ok hrun).trans hrun', hb, hs'', ?_⟩
  rw [List.length_append]
  exact hpassed.trans hpassed'

/-- A part after which nothing more is read. -/
lemma Parses.bind_last (hm : Parses Γ Γ₁ m xs F P) (hnext : ∀ kind, G kind → F kind)
    (hf : ∀ a, P a → Parses Γ₁ Γ₂ (f a) [] G Q) : Parses Γ Γ₂ (m >>= f) xs G Q := by
  have hbind : Parses Γ Γ₂ (m >>= f) (xs ++ []) G Q := hm.bind hnext hf
  rwa [List.append_nil] at hbind

/-- A step that reads nothing. -/
lemma Parses.silent (hm : Parses Γ Γ₁ m [] Anything P)
    (hf : ∀ a, P a → Parses Γ₁ Γ₂ (f a) ys G Q) : Parses Γ Γ₂ (m >>= f) ys G Q :=
  hm.bind leads_anything hf

/-- A step that only looks at the state. -/
lemma Parses.peeks (hm : Peeks m) (hf : ∀ a, Parses Γ Γ₁ (f a) ys G Q) :
    Parses Γ Γ₁ (m >>= f) ys G Q := by
  intro s hs hys hG
  obtain ⟨a, ha⟩ := hm s
  rw [bind_of_ok ha]
  exact hf a s hs hys hG

/-- A step whose result the setting decides. -/
lemma Parses.of_run {a : α} (hm : ∀ s, Γ.Fits s → m s = .ok a s)
    (hf : Parses Γ Γ₁ (f a) ys G Q) : Parses Γ Γ₁ (m >>= f) ys G Q := by
  intro s hs hys hG
  rw [bind_of_ok (hm s hs)]
  exact hf s hs hys hG

/-! ### Single tokens -/

lemma Parses.kind {f : Kind → Check β} (hnext : Leads F G ys)
    (hf : ∀ kind, F kind → Parses Γ Γ₁ (f kind) ys G Q) :
    Parses Γ Γ₁ (kind >>= f) ys G Q := by
  intro s hs hys hG
  exact hf _ (hnext.kind hys hG) s hs hys hG

/-- The first symbol decides what is done. -/
lemma Parses.first {f : Kind → Check β} (h : Parses Γ Γ₁ (f x.kind) (x :: ys) G Q) :
    Parses Γ Γ₁ (Check.kind >>= f) (x :: ys) G Q :=
  .kind (F := (· = x.kind)) rfl fun _ hkind => hkind ▸ h

lemma Spells.parses (h : Spells Γ.declared m xs F P) : Parses Γ Γ m xs F P := by
  intro s hs hxs hnext
  obtain ⟨a, types, hrun, ha⟩ := h s hs.declared hxs hnext
  exact ⟨a, _, hrun, ha, hs.move, .quiet rfl rfl⟩

lemma Parses.advance {f : Token → Check β} (hx : x.kind ≠ .eof)
    (hf : ∀ token, token.symbol = x → Parses Γ Γ₁ (f token) ys G Q) :
    Parses Γ Γ₁ (Check.advance >>= f) (x :: ys) G Q :=
  (spells_advance hx).parses.bind leads_anything hf

/-- A token that is required and there. -/
lemma Parses.require {f : Token → Check β} {k : Kind} (hx : x.kind = k) (hk : k ≠ .eof)
    (hf : ∀ token, token.symbol = x → Parses Γ Γ₁ (f token) ys G Q) :
    Parses Γ Γ₁ (Check.require k >>= f) (x :: ys) G Q :=
  (spells_require hx hk).parses.bind leads_anything hf

/-- An optional token that is there. -/
lemma Parses.takes {f : Bool → Check β} {k : Kind} (hx : x.kind = k) (hk : k ≠ .eof)
    (hf : Parses Γ Γ₁ (f true) ys G Q) : Parses Γ Γ₁ (Check.takes k >>= f) (x :: ys) G Q :=
  (spells_takes hx hk).parses.bind leads_anything fun _ htaken => htaken ▸ hf

/-- An optional token that is not there. -/
lemma Parses.takes_not {f : Bool → Check β} {k : Kind} (hnext : Leads (· ≠ k) G ys)
    (hf : Parses Γ Γ₁ (f false) ys G Q) : Parses Γ Γ₁ (Check.takes k >>= f) ys G Q := by
  intro s hs hys hG
  rw [bind_of_ok (takes_of_ne (hnext.kind hys hG))]
  exact hf s hs hys hG

/-- A bound taken from the tokens that are left is above the number of symbols. -/
lemma Parses.bound {f : Nat → Check β}
    (hf : ∀ fuel, ys.length ≤ fuel → Parses Γ Γ₁ (f (fuel + 1)) ys G Q) :
    Parses Γ Γ₁ (Check.bound >>= f) ys G Q := by
  intro s hs hys hG
  refine hf s.cursor.remaining ?_ s hs hys hG
  rw [← Cursor.length_symbols]
  exact hys.length_le

/-! ### The state -/

lemma Parses.get {f : State → Check β} (hf : ∀ s, Γ.Fits s → Parses Γ Γ₁ (f s) ys G Q) :
    Parses Γ Γ₁ (get >>= f) ys G Q :=
  fun s hs hys hG => hf s hs s hs hys hG

lemma classNamed?_run (name : String) (s : State) :
    classNamed? name s = .ok (s.classNamed? name) s := by
  rw [classNamed?, bind_of_ok (get_run s), State.classNamed?]
  split
  · rfl
  · split <;> rfl

lemma classNamed?_of_fits (h : Γ.Fits s) {name : String} :
    classNamed? name s = .ok (Γ.classNamed? name) s := by
  rw [classNamed?_run, h.classNamed?]

lemma classes_of_fits (h : Γ.Fits s) : classes s = .ok Γ.classes s := by
  rw [← h.classes]
  rfl

lemma parses_typeOf {descriptor : String} :
    Parses Γ Γ (typeOf descriptor) [] Anything fun _ => True :=
  spells_typeOf.parses

lemma parses_mixed : Parses Γ Γ mixed [] Anything fun _ => True := parses_typeOf

lemma parses_instanceType {id : ClassId} :
    Parses Γ Γ (instanceType id) [] Anything fun _ => True :=
  .peeks (peeks_className id) fun _ => parses_typeOf

/-- A report is added to the log or is there already. -/
lemma exists_entries_add (log : Log) (d : Diagnostic) :
    ∃ added, (log.add d).entries = log.entries ++ added ∧ ∀ e ∈ added, e = d := by
  rw [Log.add]
  split
  · exact ⟨[], (List.append_nil _).symm, List.forall_mem_nil _⟩
  · exact ⟨[d], rfl, fun e he => List.mem_singleton.mp he⟩

lemma parses_report {cause : Cause} {position : Position}
    (h : (Diagnostic.ofFault ⟨cause, position⟩).IsHarmless) :
    Parses Γ Γ (report cause position) [] Anything fun _ => True := by
  intro s hs _ _
  obtain ⟨added, hadded, hall⟩ := exists_entries_add s.log (.ofFault ⟨cause, position⟩)
  exact ⟨(), _, rfl, trivial, ⟨hs.routine, hs.classes, hs.classNamed?, hs.declared, hs.depth⟩,
    rfl, added, hadded, fun d hd => hall d hd ▸ h⟩

lemma parses_reportUnreachable {position : Position} :
    Parses Γ Γ (reportUnreachable position) [] Anything fun _ => True := by
  refine .peeks peeks_get fun s => ?_
  split
  · exact parses_report ⟨position, Or.inl rfl⟩
  · exact .pure trivial

/-- A variable that is declared is one more. -/
lemma parses_setVariable {name : String} {type : Ty} {isAnnotated : Bool} :
    Parses Γ (Γ.declaring [name]) (setVariable name type isAnnotated) [] Anything
      fun _ => True := by
  intro s hs _ _
  refine ⟨(), _, rfl, trivial, ⟨hs.routine, hs.classes, hs.classNamed?, ?_, hs.depth⟩,
    .quiet rfl rfl⟩
  intro other hother
  show (((name, _) :: s.scope.filter (·.1 != name)).lookup other).isSome
  rw [lookup_declare]
  split
  · rfl
  case isFalse hne =>
    rcases List.mem_append.mp hother with hdeclared | hname
    · exact hs.declared other hdeclared
    · exact absurd (List.mem_singleton.mp hname) hne

/-- What is inside one more loop. -/
lemma Parses.inLoop {names : List String}
    (h : Parses Γ.inside (Γ.inside.declaring names) m xs F P) :
    Parses Γ (Γ.declaring names) (Check.inLoop m) xs F P := by
  intro s hs hxs hF
  have hinside : Γ.inside.Fits { s with loopDepth := s.loopDepth + 1 } :=
    ⟨hs.routine, hs.classes, hs.classNamed?, hs.declared, congrArg (· + 1) hs.depth⟩
  obtain ⟨a, s', hrun, ha, hs', hpassed⟩ := h _ hinside hxs hF
  refine ⟨a, { s' with loopDepth := s.loopDepth }, ?_, ha,
    ⟨hs'.routine, hs'.classes, hs'.classNamed?, hs'.declared, hs.depth⟩,
    hpassed.cursor, hpassed.log⟩
  rw [Check.inLoop, within, hrun]

lemma Parses.recover {fallback : α} (h : Parses Γ Γ₁ m xs F P) :
    Parses Γ Γ₁ (Check.recover fallback m) xs F P := by
  intro s hs hxs hF
  obtain ⟨a, s', hrun, hrest⟩ := h s hs hxs hF
  refine ⟨a, s', ?_, hrest⟩
  rw [Check.recover, hrun]

end Check

end ScriptCheck
