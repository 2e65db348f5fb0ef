import ScriptCheck.Proofs.Analysis.Composed
import ScriptCheck.Proofs.Coherence.Table
import ScriptCheck.Proofs.Descriptor.Display

/-!
Coherent states.

A state is coherent if its table of classes is, and every class number in the rest of it is that of
a class of the table: those in the signatures of functions, the types of constants and variables,
the compiled types, the routine and the class at hand, and among the classes that have been checked.

`Keeps` says of a computation that it keeps states coherent, however it ends, that the table does
not lose classes, and that a result has a property relative to the number of classes then. Most
computations leave the number as it is (`KeepsAt`), and many change nothing but the cursor and the
log (`Spares`). Computations are put together with one rule for each way of composing them.
-/

namespace ScriptCheck

/-- What is known by name mentions no class that is not in the table. -/
structure Env.Coherent (env : Env) : Prop where
  classes : env.classes.Coherent
  functions : ∀ entry ∈ env.functions, entry.2.signature.Within env.classes.size
  constants : ∀ entry ∈ env.constants, entry.2.Within env.classes.size

/-- The classes in compiled types are among the first so many. -/
def TypeCache.Within (n : Nat) (cache : TypeCache) : Prop :=
  ∀ entry ∈ cache.entries, entry.2.type.Within n

/-- The classes in the signature of the routine, and the class it belongs to, are among the first so
many. -/
structure Routine.Within (n : Nat) (routine : Routine) : Prop where
  signature : routine.signature.Within n
  owner : ∀ id ∈ routine.owner, id < n

/-- Nothing in the state mentions a class that is not in the table. -/
structure State.Coherent (s : State) : Prop where
  env : s.env.Coherent
  types : s.types.Within s.env.classes.size
  scope : ∀ entry ∈ s.scope, entry.2.type.Within s.env.classes.size
  routine : ∀ routine ∈ s.routine, routine.Within s.env.classes.size
  inClass : ∀ id ∈ s.inClass, id < s.env.classes.size
  checked : ∀ id ∈ s.checked, id < s.env.classes.size

variable {n k : Nat}

instance (env : Env) : Decidable env.Coherent :=
  decidable_of_iff (env.classes.Coherent ∧
      (∀ entry ∈ env.functions, entry.2.signature.Within env.classes.size) ∧
      ∀ entry ∈ env.constants, entry.2.Within env.classes.size)
    ⟨fun h => ⟨h.1, h.2.1, h.2.2⟩, fun h => ⟨h.classes, h.functions, h.constants⟩⟩

instance (n : Nat) (cache : TypeCache) : Decidable (cache.Within n) :=
  inferInstanceAs (Decidable (∀ entry ∈ cache.entries, entry.2.type.Within n))

lemma TypeCache.Within.mono {cache : TypeCache} (h : cache.Within n) (hn : n ≤ k) :
    cache.Within k :=
  fun entry hentry => (h entry hentry).mono hn

lemma Routine.Within.mono {routine : Routine} (h : routine.Within n) (hn : n ≤ k) :
    routine.Within k where
  signature := h.signature.mono hn
  owner id hid := Nat.lt_of_lt_of_le (h.owner id hid) hn

lemma mem_of_lookup {α : Type} {name : String} {a : α} {entries : List (String × α)}
    (h : entries.lookup name = some a) : (name, a) ∈ entries := by
  obtain ⟨before, after, heq, -⟩ := List.lookup_eq_some_iff.mp h
  rw [heq]
  exact List.mem_append_right before List.mem_cons_self

namespace Env.Coherent

variable {env : Env}

lemma function? (h : env.Coherent) {name : String} {entry : FunctionDecl}
    (hentry : env.function? name = some entry) : entry.signature.Within env.classes.size :=
  h.functions _ (mem_of_lookup hentry)

lemma constant? (h : env.Coherent) {name : String} {type : Ty}
    (htype : env.constant? name = some type) : type.Within env.classes.size :=
  h.constants _ (mem_of_lookup htype)

/-- The table may be replaced by another coherent one that is not smaller. -/
lemma grow (h : env.Coherent) {t : ClassTable} (ht : t.Coherent) (hle : env.classes.size ≤ t.size) :
    ({ env with classes := t } : Env).Coherent where
  classes := ht
  functions entry hentry := (h.functions entry hentry).mono hle
  constants entry hentry := (h.constants entry hentry).mono hle

lemma addFunction (h : env.Coherent) {entry : FunctionDecl}
    (hentry : entry.signature.Within env.classes.size) : (env.addFunction entry).Coherent := by
  rw [Env.addFunction]
  split
  · exact h
  · exact ⟨h.classes, forall_mem_concat h.functions hentry, h.constants⟩

lemma addConstant (h : env.Coherent) (name : String) {type : Ty}
    (htype : type.Within env.classes.size) : (env.addConstant name type).Coherent := by
  rw [Env.addConstant]
  split
  · exact h
  · exact ⟨h.classes, h.functions, forall_mem_concat h.constants htype⟩

end Env.Coherent

lemma Env.classes_addFunction (env : Env) (entry : FunctionDecl) :
    (env.addFunction entry).classes = env.classes := by
  rw [Env.addFunction]
  split <;> rfl

lemma Env.classes_addConstant (env : Env) (name : String) (type : Ty) :
    (env.addConstant name type).classes = env.classes := by
  rw [Env.addConstant]
  split <;> rfl

/-- What is known by name may be replaced by something coherent with no fewer classes. -/
lemma State.Coherent.grow {s : State} (h : s.Coherent) {env : Env} (henv : env.Coherent)
    (hle : s.env.classes.size ≤ env.classes.size) : ({ s with env := env } : State).Coherent where
  env := henv
  types := h.types.mono hle
  scope entry hentry := (h.scope entry hentry).mono hle
  routine routine hroutine := (h.routine routine hroutine).mono hle
  inClass id hid := Nat.lt_of_lt_of_le (h.inClass id hid) hle
  checked id hid := Nat.lt_of_lt_of_le (h.checked id hid) hle

/-! ### Compiled types -/

namespace TypeCache.Within

variable {cache : TypeCache} {t : ClassTable}

lemma find? (h : cache.Within n) {descriptor : String} {made : Interned}
    (hmade : cache.find? descriptor = some made) : made.type.Within n :=
  h _ (mem_of_lookup hmade)

lemma bind (h : cache.Within n) (descriptor : String) {made : Interned}
    (hmade : made.type.Within n) : (cache.bind descriptor made).Within n := by
  rw [TypeCache.bind]
  split
  · exact h
  · exact forall_mem_concat h hmade

lemma intern (h : cache.Within n) (descriptor : String) {type : Ty} (htype : type.Within n)
    (element : Option Nat) :
    (cache.intern descriptor type element).1.type.Within n ∧
      (cache.intern descriptor type element).2.Within n := by
  rw [TypeCache.intern]
  split
  case h_1 made hmade => exact ⟨h.find? hmade, h⟩
  case h_2 =>
    exact ⟨htype, forall_mem_concat h htype⟩

lemma nest (h : cache.Within n) (name : List Char) {base : Interned} (hbase : base.type.Within n)
    (tags : List Keys) :
    (cache.nest name base tags).1.type.Within n ∧ (cache.nest name base tags).2.Within n := by
  induction tags with
  | nil => exact ⟨hbase, h⟩
  | cons key tags ih =>
      have hcontainer : (Ty.container key (cache.nest name base tags).1.type).Within n := ih.1
      exact ih.2.intern _ hcontainer _

lemma named? {name : String} {type : Ty} (h : Descriptor.named? t name = some type) :
    type.Within t.size := by
  rw [Descriptor.named?] at h
  split at h
  case h_1 basic hbasic =>
    cases h
    have hplain := Descriptor.isBasic_of_basic? hbasic
    cases type with
    | ofClass id name => cases hplain
    | container key element => cases hplain
    | _ => trivial
  case h_2 =>
    obtain ⟨id, hid, rfl⟩ := Option.map_eq_some_iff.mp h
    exact ClassTable.lt_size_of_idOf? hid

lemma compileParsed (h : cache.Within t.size) {name : List Char} {tags : List Keys}
    {made : Interned} {cache' : TypeCache} (hmade : cache.compileParsed t name tags = some (made, cache')) :
    made.type.Within t.size ∧ cache'.Within t.size := by
  have hnest : ∀ {cache : TypeCache} {base : Interned}, cache.Within t.size →
      base.type.Within t.size → cache.nest name base tags = (made, cache') →
      made.type.Within t.size ∧ cache'.Within t.size := by
    intro cache base hcache hbase heq
    have hparts := hcache.nest name hbase tags
    rw [heq] at hparts
    exact hparts
  rw [TypeCache.compileParsed] at hmade
  split at hmade
  case h_1 base hbase => exact hnest h (h.find? hbase) (Option.some.inj hmade)
  case h_2 =>
    split at hmade
    case h_1 => cases hmade
    case h_2 type htype =>
      obtain ⟨hbase, hcache⟩ := h.intern (String.ofList name) (named? htype) none
      exact hnest hcache hbase (Option.some.inj hmade)

/-- Compiling gives types of the classes of the table, and stores no others. -/
lemma compile (h : cache.Within t.size) (descriptor : String) :
    (∀ made, (cache.compile t descriptor).1 = .ok made → made.type.Within t.size) ∧
      (cache.compile t descriptor).2.Within t.size := by
  rw [TypeCache.compile]
  split
  case h_1 made hmade => exact ⟨fun made' heq => by cases heq; exact h.find? hmade, h⟩
  case h_2 =>
    dsimp only
    split
    case h_1 => exact ⟨fun made heq => (by cases heq), h⟩
    case h_2 name tags hparse =>
      split
      case h_1 => exact ⟨fun made heq => (by cases heq), h⟩
      case h_2 made cache' hmade =>
        obtain ⟨htype, hcache⟩ := h.compileParsed hmade
        exact ⟨fun made' heq => by cases heq; exact htype, hcache.bind descriptor htype⟩

end TypeCache.Within

namespace Check

variable {α β : Type} {m : Check α} {f : α → Check β} {Q : Nat → α → Prop} {R : Nat → β → Prop}

/-! ### Computations that keep states coherent -/

/-- Started in a coherent state with so many classes, the computation ends in a coherent state with
no fewer, and its result has a property relative to their number. -/
def Keeps (n : Nat) (Q : Nat → α → Prop) (m : Check α) : Prop :=
  ∀ s, s.Coherent → s.env.classes.size = n →
    (endState (m s)).Coherent ∧ n ≤ (endState (m s)).env.classes.size ∧
      ∀ a s', m s = .ok a s' → Q s'.env.classes.size a

/-- The computation enters no class, if it gives a result. -/
abbrev KeepsAt (n : Nat) (P : α → Prop) (m : Check α) : Prop :=
  Keeps n (fun k a => k = n ∧ P a) m

/-- The computation changes only the cursor and the log. -/
def Spares (m : Check α) : Prop :=
  ∀ s, ∃ c log, endState (m s) = { s with cursor := c, log := log }

namespace Keeps

lemma mono {Q' : Nat → α → Prop} (h : Keeps n Q m) (hQ : ∀ k a, n ≤ k → Q k a → Q' k a) :
    Keeps n Q' m := by
  intro s hs hsize
  obtain ⟨hend, hle, hresult⟩ := h s hs hsize
  refine ⟨hend, hle, fun a s' hrun => hQ _ a ?_ (hresult a s' hrun)⟩
  rw [hrun] at hle
  exact hle

lemma pure {a : α} (h : Q n a) : Keeps n Q (Pure.pure a) := by
  intro s hs hsize
  refine ⟨hs, hsize.ge, fun a' s' hrun => ?_⟩
  cases hrun
  rw [hsize]
  exact h

lemma bind (hm : Keeps n Q m) (hf : ∀ k a, n ≤ k → Q k a → Keeps k R (f a)) :
    Keeps n R (m >>= f) := by
  intro s hs hsize
  obtain ⟨hend, hle, hresult⟩ := hm s hs hsize
  cases hrun : m s with
  | error e s' =>
      rw [hrun] at hend hle
      rw [bind_of_error hrun]
      exact ⟨hend, hle, fun b s'' h => by cases h⟩
  | ok a s' =>
      rw [hrun] at hend hle
      rw [bind_of_ok hrun]
      obtain ⟨hend', hle', hresult'⟩ := hf _ a hle (hresult a s' hrun) s' hend rfl
      exact ⟨hend', hle.trans hle', hresult'⟩

lemma map {g : α → β} (hm : Keeps n Q m) (hg : ∀ k a, n ≤ k → Q k a → R k (g a)) :
    Keeps n R (g <$> m) := by
  rw [map_eq_pure_bind]
  exact hm.bind fun k a hk ha => .pure (hg k a hk ha)

/-- A computation that breaks off and leaves the state as it is. -/
lemma of_error (h : ∀ s, ∃ e, m s = .error e s) : Keeps n Q m := by
  intro s hs hsize
  obtain ⟨e, hrun⟩ := h s
  rw [hrun]
  exact ⟨hs, hsize.ge, fun a s' h => by cases h⟩

/-- After a fault the result is the fallback, whatever the number of classes has become. -/
lemma recover {fallback : α} (hm : Keeps n Q m) (hfallback : ∀ k, n ≤ k → Q k fallback) :
    Keeps n Q (recover fallback m) := by
  intro s hs hsize
  obtain ⟨hend, hle, hresult⟩ := hm s hs hsize
  cases hrun : m s with
  | ok a s' =>
      rw [hrun] at hend hle
      rw [recover_of_ok hrun]
      refine ⟨hend, hle, fun a' s'' h => ?_⟩
      cases h
      exact hresult a s' hrun
  | error e s' =>
      rw [hrun] at hend hle
      cases e with
      | spent =>
          rw [recover_of_spent hrun]
          exact ⟨hend, hle, fun a' s'' h => by cases h⟩
      | fault fault =>
          rw [recover_of_fault hrun]
          refine ⟨⟨hend.env, hend.types, hend.scope, hend.routine, hend.inClass, hend.checked⟩, hle,
            fun a' s'' h => ?_⟩
          cases h
          exact hfallback _ hle

/-- A part in another context. -/
lemma within {enter : State → State} {leave : State → State → State} (hm : Keeps n Q m)
    (henter : ∀ s, s.Coherent → s.env.classes.size = n →
      (enter s).Coherent ∧ (enter s).env = s.env)
    (hleave : ∀ s s', s.Coherent → s'.Coherent → s.env.classes.size ≤ s'.env.classes.size →
      (leave s s').Coherent ∧ (leave s s').env = s'.env) :
    Keeps n Q (within enter leave m) := by
  intro s hs hsize
  obtain ⟨hinner, henv⟩ := henter s hs hsize
  obtain ⟨hend, hle, hresult⟩ := hm (enter s) hinner (by rw [henv, hsize])
  obtain ⟨hleft, henv'⟩ := hleave s _ hs hend (hsize ▸ hle)
  rw [endState_within, henv']
  refine ⟨hleft, hle, fun a s' hrun => ?_⟩
  obtain ⟨t, hbody, rfl⟩ := exists_of_within hrun
  rw [hbody] at henv'
  rw [show (leave s t).env = t.env from henv']
  exact hresult a t hbody

lemma inRoutine {routine : Routine} (hroutine : routine.Within n) (hm : Keeps n Q m) :
    Keeps n Q (inRoutine routine m) := by
  refine hm.within (fun s hs hsize => ⟨?_, rfl⟩) fun s s' hs hs' hle => ⟨?_, rfl⟩
  · subst hsize
    exact { hs with
      scope := List.forall_mem_nil _
      routine := fun r hr => by cases hr; exact hroutine
      inClass := hroutine.owner }
  · exact { hs' with
      scope := fun entry hentry => (hs.scope entry hentry).mono hle
      routine := fun r hr => (hs.routine r hr).mono hle
      inClass := fun id hid => Nat.lt_of_lt_of_le (hs.inClass id hid) hle }

lemma inClass {id : ClassId} (hid : id < n) (hm : Keeps n Q m) : Keeps n Q (inClass id m) := by
  refine hm.within (fun s hs hsize => ⟨?_, rfl⟩) fun s s' hs hs' hle => ⟨?_, rfl⟩
  · subst hsize
    exact { hs with inClass := fun k hk => by cases hk; exact hid }
  · exact { hs' with inClass := fun k hk => Nat.lt_of_lt_of_le (hs.inClass k hk) hle }

lemma inLoop (hm : Keeps n Q m) : Keeps n Q (inLoop m) :=
  hm.within (fun _ hs _ => ⟨{ hs with }, rfl⟩) fun _ _ _ hs' _ => ⟨{ hs' with }, rfl⟩

/-- What is done next may depend on the state. -/
lemma get {f : State → Check β}
    (hf : ∀ s, s.Coherent → s.env.classes.size = n → Keeps n R (f s)) :
    Keeps n R (MonadState.get >>= f) :=
  fun s hs hsize => hf s hs hsize s hs hsize

/-- What is done next may depend on the table of classes. -/
lemma classes {f : ClassTable → Check β} (hf : ∀ t, t.Coherent → t.size = n → Keeps n R (f t)) :
    Keeps n R (classes >>= f) :=
  fun s hs hsize => hf s.env.classes hs.env.classes hsize s hs hsize

end Keeps

lemma KeepsAt.bind {P : α → Prop} (hm : KeepsAt n P m) (hf : ∀ a, P a → Keeps n R (f a)) :
    Keeps n R (m >>= f) := by
  refine Keeps.bind hm fun k a _ ha => ?_
  obtain ⟨rfl, ha⟩ := ha
  exact hf a ha

lemma KeepsAt.keeps (h : KeepsAt n (Q n) m) : Keeps n Q m := by
  refine Keeps.mono h fun k a _ ha => ?_
  obtain ⟨rfl, ha⟩ := ha
  exact ha

/-! ### Computations that change only the cursor and the log -/

lemma Spares.keepsAt (h : Spares m) : KeepsAt n (fun _ => True) m := by
  intro s hs hsize
  obtain ⟨c, log, hend⟩ := h s
  rw [hend]
  refine ⟨{ hs with }, hsize.ge, fun a s' hrun => ⟨?_, trivial⟩⟩
  rw [hrun] at hend
  rw [show s' = { s with cursor := c, log := log } from hend]
  exact hsize

/-- Nothing needs to be known of the result of such a computation. -/
lemma Keeps.after (hm : Spares m) (hf : ∀ a, Keeps n R (f a)) : Keeps n R (m >>= f) :=
  KeepsAt.bind hm.keepsAt fun a _ => hf a

lemma Keeps.peek (hm : Peeks m) (hf : ∀ a, Keeps n R (f a)) : Keeps n R (m >>= f) := by
  intro s
  obtain ⟨a, hrun⟩ := hm s
  rw [bind_of_ok hrun]
  exact hf a s

section Conditions

variable {c : Prop} [Decidable c] {R : Nat → β → Prop}

lemma Keeps.ite {m m' : Check β} (hm : Keeps n R m) (hm' : Keeps n R m') :
    Keeps n R (if c then m else m') := by
  split
  · exact hm
  · exact hm'

/-- A step that is made under a condition. -/
lemma Keeps.when {m : Check Unit} {f : Unit → Check β} (hm : Spares m)
    (hf : ∀ u, Keeps n R (f u)) : Keeps n R (if c then m >>= f else f ()) := by
  split
  · exact .after hm hf
  · exact hf ()

/-- A step that is made unless there is a condition. -/
lemma Keeps.unless {m : Check Unit} {f : Unit → Check β} (hm : Spares m)
    (hf : ∀ u, Keeps n R (f u)) : Keeps n R (if c then f () else m >>= f) := by
  split
  · exact hf ()
  · exact .after hm hf

/-- A step under a condition, whose result is not used. -/
lemma Keeps.optional {k : Check β} (hm : Spares m) (hk : Keeps n R k) :
    Keeps n R (if c then m >>= fun _ => k else k) := by
  split
  · exact .after hm fun _ => hk
  · exact hk

/-- One of two ways to a result. -/
lemma Keeps.either {m' : Check α} (hm : Keeps n Q m) (hm' : Keeps n Q m')
    (hf : ∀ k a, n ≤ k → Q k a → Keeps k R (f a)) :
    Keeps n R (if c then m >>= f else m' >>= f) := by
  split
  · exact hm.bind hf
  · exact hm'.bind hf

lemma KeepsAt.either {P : α → Prop} {m' : Check α} (hm : KeepsAt n P m) (hm' : KeepsAt n P m')
    (hf : ∀ a, P a → Keeps n R (f a)) : Keeps n R (if c then m >>= f else m' >>= f) := by
  split
  · exact hm.bind hf
  · exact hm'.bind hf

end Conditions

@[grind ←]
lemma Spares.pure {a : α} : Spares (Pure.pure a) :=
  fun s => ⟨s.cursor, s.log, rfl⟩

@[grind ←]
lemma Spares.bind (hm : Spares m) (hf : ∀ a, Spares (f a)) : Spares (m >>= f) := by
  intro s
  obtain ⟨c, log, hend⟩ := hm s
  cases hrun : m s with
  | error e s' =>
      rw [hrun] at hend
      rw [bind_of_error hrun]
      exact ⟨c, log, hend⟩
  | ok a s' =>
      rw [hrun] at hend
      rw [bind_of_ok hrun]
      obtain ⟨c', log', hend'⟩ := hf a s'
      refine ⟨c', log', hend'.trans ?_⟩
      rw [show s' = { s with cursor := c, log := log } from hend]

@[grind ←]
lemma Peeks.spares (h : Peeks m) : Spares m := by
  intro s
  obtain ⟨a, hrun⟩ := h s
  rw [hrun]
  exact ⟨s.cursor, s.log, rfl⟩

lemma Spares.of_error (h : ∀ s, ∃ e, m s = .error e s) : Spares m := by
  intro s
  obtain ⟨e, hrun⟩ := h s
  rw [hrun]
  exact ⟨s.cursor, s.log, rfl⟩

@[grind ←]
lemma spares_throw {halt : Halt} : Spares (throw halt : Check α) :=
  .of_error fun _ => ⟨halt, rfl⟩

@[grind ←]
lemma spares_fail {cause : Cause} {p : Position} : Spares (fail cause p : Check α) :=
  .of_error fun _ => ⟨.fault ⟨cause, p⟩, rfl⟩

@[grind ←]
lemma spares_rejectToken (token : Token) : Spares (rejectToken token : Check α) :=
  .of_error fun s => ⟨.fault ⟨.unexpectedToken token.value, ⟨token.start, s.cursor.file⟩⟩, rfl⟩

@[grind ←]
lemma spares_setCursor {c : Cursor} : Spares (setCursor c) :=
  fun s => ⟨c, s.log, rfl⟩

@[grind ←]
lemma spares_advance : Spares advance :=
  fun s => ⟨s.cursor.advance, s.log, rfl⟩

@[grind ←]
lemma spares_require {kind : Kind} : Spares (require kind) := by
  rw [require]
  grind

@[grind ←]
lemma spares_takes {kind : Kind} : Spares (takes kind) := by
  rw [takes]
  grind

@[grind ←]
lemma spares_report {cause : Cause} {p : Position} : Spares (report cause p) :=
  fun s => ⟨s.cursor, s.log.addFault ⟨cause, p⟩, rfl⟩

@[grind ←]
lemma spares_checkType {expected received : Ty} {p : Position} :
    Spares (checkType expected received p) := by
  rw [checkType]
  grind

section Tokens

variable {kind : Kind}

lemma Keeps.require {f : Token → Check β} (hf : ∀ token, Keeps n R (f token)) :
    Keeps n R (Check.require kind >>= f) :=
  .after spares_require hf

lemma Keeps.takes {f : Bool → Check β} (hf : ∀ isTaken, Keeps n R (f isTaken)) :
    Keeps n R (Check.takes kind >>= f) :=
  .after spares_takes hf

lemma Keeps.advance {f : Token → Check β} (hf : ∀ token, Keeps n R (f token)) :
    Keeps n R (Check.advance >>= f) :=
  .after spares_advance hf

lemma Keeps.onKind {f : Kind → Check β} (hf : ∀ kind, Keeps n R (f kind)) :
    Keeps n R (Check.kind >>= f) :=
  .peek peeks_kind hf

lemma Keeps.bound {f : Nat → Check β} (hf : ∀ depth, Keeps n R (f depth)) :
    Keeps n R (Check.bound >>= f) :=
  .peek peeks_bound hf

end Tokens

/-! ### Breaking off -/

lemma keeps_spent : Keeps n Q (throw .spent : Check α) :=
  .of_error fun _ => ⟨.spent, rfl⟩

lemma keeps_fail {cause : Cause} {p : Position} : Keeps n Q (fail cause p : Check α) :=
  .of_error fun _ => ⟨.fault ⟨cause, p⟩, rfl⟩

lemma keeps_reject : Keeps n Q (reject : Check α) :=
  .of_error fun s => ⟨.fault s.cursor.rejection, rfl⟩

lemma keeps_rejectToken (token : Token) : Keeps n Q (rejectToken token : Check α) :=
  .of_error fun s => ⟨.fault ⟨.unexpectedToken token.value, ⟨token.start, s.cursor.file⟩⟩, rfl⟩

/-! ### Types and names -/

lemma keepsAt_compile (descriptor : String) :
    KeepsAt n (fun result => ∀ type, result = .ok type → type.Within n) (compile descriptor) := by
  intro s hs hsize
  subst hsize
  obtain ⟨hmade, hcache⟩ := hs.types.compile descriptor
  refine ⟨{ hs with types := hcache }, le_rfl, fun result s' hrun => ?_⟩
  obtain ⟨rfl, rfl⟩ : (s.types.compile s.env.classes descriptor).1.map (·.type) = result ∧
      { s with types := (s.types.compile s.env.classes descriptor).2 } = s' :=
    EStateM.Result.ok.inj hrun
  refine ⟨rfl, fun type htype => ?_⟩
  cases hresult : (s.types.compile s.env.classes descriptor).1 with
  | error e =>
      rw [hresult] at htype
      cases htype
  | ok made =>
      rw [hresult] at htype
      cases htype
      exact hmade made hresult

lemma keepsAt_typeOf {descriptor : String} : KeepsAt n (Ty.Within n) (typeOf descriptor) := by
  refine (keepsAt_compile descriptor).bind fun result hresult => ?_
  cases result with
  | ok type => exact .pure ⟨rfl, hresult type rfl⟩
  | error e => exact .pure ⟨rfl, trivial⟩

lemma keepsAt_mixed : KeepsAt n (Ty.Within n) mixed := keepsAt_typeOf

lemma keepsAt_noteType (descriptor : String) (p : Position) :
    KeepsAt n (Ty.Within n) (noteType descriptor p) := by
  refine .get fun s _ _ => (keepsAt_compile _).bind fun result hresult => ?_
  cases result with
  | ok type => exact .pure ⟨rfl, hresult type rfl⟩
  | error e => exact .after spares_report fun _ => keepsAt_mixed

lemma keepsAt_instanceType (id : ClassId) : KeepsAt n (Ty.Within n) (instanceType id) :=
  .peek (peeks_className id) fun _ => keepsAt_typeOf

lemma keepsAt_classNamed? (name : String) :
    KeepsAt n (fun found => ∀ id ∈ found, id < n) (classNamed? name) := by
  refine .get fun s hs hsize => ?_
  subst hsize
  split
  case isTrue => exact .pure ⟨rfl, hs.inClass⟩
  case isFalse =>
    split
    case isTrue =>
      refine .pure ⟨rfl, fun parent hparent => ?_⟩
      obtain ⟨decl, hdecl, hsuper⟩ := Option.bind_eq_some_iff.mp hparent
      obtain ⟨id, -, hget⟩ := Option.bind_eq_some_iff.mp hdecl
      exact hs.env.classes.superclass hget hsuper
    case isFalse => exact .pure ⟨rfl, fun id hid => ClassTable.lt_size_of_idOf? hid⟩

lemma keepsAt_variableNamed? (name : String) :
    KeepsAt n (fun found => ∀ v ∈ found, v.type.Within n) (variableNamed? name) := by
  refine .get fun s hs hsize => .pure ⟨rfl, fun v hv => ?_⟩
  subst hsize
  exact hs.scope _ (mem_of_lookup hv)

lemma keepsAt_setVariable (name : String) {type : Ty} (htype : type.Within n) (isAnnotated : Bool) :
    KeepsAt n (fun _ => True) (setVariable name type isAnnotated) := by
  intro s hs hsize
  subst hsize
  refine ⟨{ hs with scope := ?_ }, le_rfl, fun _ s' hrun => by cases hrun; exact ⟨rfl, trivial⟩⟩
  exact List.forall_mem_cons.mpr
    ⟨htype, fun entry hentry => hs.scope entry (List.mem_filter.mp hentry).1⟩

lemma keepsAt_modifyEnv {f : Env → Env} (hf : ∀ env, env.Coherent → env.classes.size = n →
    (f env).Coherent ∧ (f env).classes.size = n) : KeepsAt n (fun _ => True) (modifyEnv f) := by
  intro s hs hsize
  obtain ⟨henv, hsize'⟩ := hf s.env hs.env hsize
  refine ⟨hs.grow henv (hsize.trans hsize'.symm).le, hsize'.ge, fun _ s' hrun => ?_⟩
  cases hrun
  exact ⟨hsize', trivial⟩

end Check

end ScriptCheck
