import ScriptCheck.Analysis.Program
import ScriptCheck.Proofs.Analysis.Primitive
import ScriptCheck.Proofs.Class.Growth

/-!
What the readers of the analysis are made of.

Every reader is put together from a few steps: it looks at the state, breaks off, moves the cursor,
reports, compiles a descriptor, declares a variable, enters a name, and runs a part of itself in
another context or recovers from a fault in it. `Composed` says so of a computation, and a law that
each step obeys then holds of every reader by one induction. Most computations between two tokens do
not even move the cursor or break off (`Steady`).

Two things about the steps matter. No step looks at the log, and the options are looked at only by
reports, in the ways that `Reported` lists. By their extent, expressions and declarations report no
code as unreachable, and expressions neither enter names nor declare variables that exist.

Laws about the state alone are proved of `Effects`, which tells what the steps do to it, whatever
they give (`Composed.effects`). The first is that a computation, however it ends, gives the options
and the context back (`Effects.context`). An expression also leaves what is known by name as it is
(`Effects.env`).
-/

namespace ScriptCheck

/-! ### The parts of the state that only concern reports -/

/-- The state without its log and options. -/
def State.bare (s : State) : State :=
  { s with options := {}, log := {} }

/-- Whether options can switch reports of the cause off. -/
def Cause.isOptional : Cause → Bool
  | .unreachableCode => true
  | .undeclaredException .. => true
  | _ => false

/-- The cause is a token that should not be where it is. -/
def Cause.isToken : Cause → Bool
  | .unexpectedToken .. => true
  | .misplacedToken .. => true
  | _ => false

/-- The cause is about the classes that a class inherits from. -/
def Cause.isAboutParents : Cause → Bool
  | .unknownClass .. | .invalidParent .. | .finalParent .. => true
  | .cyclicInheritance .. | .unimplementedMethod .. => true
  | _ => false

attribute [grind =] Cause.isOptional.eq_def Cause.isToken.eq_def

/-- The cause is that something has a type that is not accepted. -/
def Cause.isMismatch : Cause → Bool
  | .typeMismatch .. => true
  | .argumentMismatch .. => true
  | _ => false

/-- The causes because of which a reader breaks off. -/
inductive Cause.BreaksOff : Cause → Prop
  | unexpected (token : String) : BreaksOff (.unexpectedToken token)
  | misplaced (token message : String) : BreaksOff (.misplacedToken token message)
  | noType (token : String) : BreaksOff (.invalidNote ("expected a type, found `" ++ token ++ "`"))
  | noteEnd (token : String) :
      BreaksOff (.invalidNote ("unexpected `" ++ token ++ "` in annotation"))
  | paramNote : BreaksOff (.invalidNote "expected a parameter type")
  | variableNote : BreaksOff (.invalidNote "expected a variable type")
  | memberNote : BreaksOff (.invalidNote "expected a type")

attribute [grind ←] Cause.BreaksOff.unexpected Cause.BreaksOff.misplaced Cause.BreaksOff.noType
  Cause.BreaksOff.noteEnd Cause.BreaksOff.variableNote

/-- What is reported depends on the options in one of these ways only. Code that is never run is
reported by statements alone. -/
inductive Reported : Extent → (Options → Env → List Fault) → Prop
  | always {w : Extent} (fault : Fault) (h : fault.cause.isOptional = false) :
      Reported w fun _ _ => [fault]
  | unreachable {w : Extent} (hw : w.RunsCode) (position : Position) : Reported w fun o _ =>
      if o.reportsUnreachable then [⟨.unreachableCode, position⟩] else []
  | undeclared {w : Extent} (routine : String) (position : Position) (raised : Env → List String) :
      Reported w fun o env =>
        if o.reportsThrows then
          (raised env).map fun exception => ⟨.undeclaredException exception routine, position⟩
        else []
  | refused {w : Extent} (target source : Ty) (fault : Fault)
      (h : fault.cause.isMismatch = true) :
      Reported w fun o env =>
        if target.accepts env.classes o.strict source then [] else [fault]

namespace Check

variable {α β : Type} {w : Extent} {m : Check α} {f : α → Check β} {s : State}

/-- A sequence starts as its first part does. -/
lemma bind_congr_run {m' : Check α} (h : m s = m' s) : (m >>= f) s = (m' >>= f) s := by
  show EStateM.bind m f s = EStateM.bind m' f s
  rw [EStateM.bind, EStateM.bind, h]

lemma recover_of_ok {fallback a : α} {s' : State} (h : m s = .ok a s') :
    recover fallback m s = .ok a s' := by
  rw [recover, h]

lemma recover_of_spent {fallback : α} {s' : State} (h : m s = .error .spent s') :
    recover fallback m s = .error .spent s' := by
  rw [recover, h]

/-- After a fault it is reported, and the broken statement is passed over. -/
lemma recover_of_fault {fallback : α} {fault : Fault} {s' : State}
    (h : m s = .error (.fault fault) s') :
    recover fallback m s = .ok fallback { s' with
      log := s'.log.addFault fault
      cursor := s'.cursor.resume s.cursor.index } := by
  rw [recover, h]
  rfl

/-- A result is that of the part, or else the part broke off, which is reported. -/
lemma exists_of_recover {fallback a : α} {s' : State} (h : recover fallback m s = .ok a s') :
    m s = .ok a s' ∨ ∃ fault t, m s = .error (.fault fault) t ∧ a = fallback ∧
      s' = { t with log := t.log.addFault fault, cursor := t.cursor.resume s.cursor.index } := by
  cases hm : m s with
  | ok b t => exact .inl ((recover_of_ok hm).symm.trans h)
  | error e t =>
      cases e with
      | spent => cases (recover_of_spent hm).symm.trans h
      | fault fault =>
          cases (recover_of_fault hm).symm.trans h
          exact .inr ⟨fault, t, rfl, rfl, rfl⟩

/-- No fault is passed on. -/
lemma recover_ne_fault {fallback : α} {fault : Fault} {t : State} :
    recover fallback m s ≠ .error (.fault fault) t := by
  intro h
  cases hm : m s with
  | ok a s' => cases (recover_of_ok hm).symm.trans h
  | error e s' =>
      cases e with
      | spent => cases (recover_of_spent hm).symm.trans h
      | fault _ => cases (recover_of_fault hm).symm.trans h

/-! ### Steps -/

/-- Looks at the state apart from its log and options. -/
def look (g : State → α) : Check α := fun s => .ok (g s.bare) s

/-- Breaks off. -/
def halt (g : State → Halt) : Check α := fun s => .error (g s.bare) s

/-- Moves the cursor, and may then break off. -/
def move (g : Cursor → Except Fault α × Cursor) : Check α := fun s =>
  match (g s.cursor).1 with
  | .ok a => .ok a { s with cursor := (g s.cursor).2 }
  | .error fault => .error (.fault fault) { s with cursor := (g s.cursor).2 }

lemma move_of_ok {g : Cursor → Except Fault α × Cursor} {a : α} (h : (g s.cursor).1 = .ok a) :
    move g s = .ok a { s with cursor := (g s.cursor).2 } := by
  rw [move, h]

lemma move_of_error {g : Cursor → Except Fault α × Cursor} {fault : Fault}
    (h : (g s.cursor).1 = .error fault) :
    move g s = .error (.fault fault) { s with cursor := (g s.cursor).2 } := by
  rw [move, h]

/-- Reports what the options ask for. -/
def reportBy (faults : Options → Env → List Fault) : Check Unit :=
  fun s => .ok () { s with log := (faults s.options s.env).foldl Log.addFault s.log }

/-- Declares a variable, unless one of its name is there. -/
def declareNew (name : String) (type : Ty) (isAnnotated : Bool) : Check Unit :=
  fun s => if (s.scope.lookup name).isNone then setVariable name type isAnnotated s else .ok () s

/-- Changes what is known by name. -/
def changeEnv (g : Env → α × Env) : Check α :=
  fun s => .ok (g s.env).1 { s with env := (g s.env).2 }

/-- Marks the inheritance of a class as checked. -/
def markChecked (id : ClassId) : Check Unit :=
  fun s => .ok () { s with checked := id :: s.checked }

/-- The computation is put together from the steps that its extent allows. -/
inductive Composed : Extent → {α : Type} → Check α → Prop
  | pure {w : Extent} {α : Type} (a : α) : Composed w (Pure.pure a)
  | bind {w : Extent} {α β : Type} {m : Check α} {f : α → Check β} :
      Composed w m → (∀ a, Composed w (f a)) → Composed w (m >>= f)
  | look {w : Extent} {α : Type} (g : State → α) : Composed w (look g)
  | halt {w : Extent} {α : Type} (g : State → Halt)
      (h : ∀ s fault, g s = .fault fault → fault.cause.BreaksOff) :
      Composed w (halt g : Check α)
  | move {w : Extent} {α : Type} (g : Cursor → Except Fault α × Cursor)
      (h : ∀ c fault, (g c).1 = .error fault → fault.cause.BreaksOff)
      (hplace : ∀ c, (g c).2 = { c with index := (g c).2.index })
      (honward : w ≠ .file → ∀ c, c.IsProper → c.Onward (g c).2 ∧ (g c).2.IsProper) :
      Composed w (move g)
  | reportBy {w : Extent} {faults : Options → Env → List Fault} (h : Reported w faults) :
      Composed w (reportBy faults)
  | compile {w : Extent} (descriptor : String) : Composed w (compile descriptor)
  | declareNew {w : Extent} (name : String) (type : Ty) (isAnnotated : Bool) :
      Composed w (declareNew name type isAnnotated)
  | recover {w : Extent} {α : Type} {m : Check α} (fallback : α) :
      Composed w m → Composed w (recover fallback m)
  | setVariable {w : Extent} (name : String) (type : Ty) (isAnnotated : Bool)
      (hw : w ≠ .expression) : Composed w (setVariable name type isAnnotated)
  | changeEnv {w : Extent} {α : Type} (g : Env → α × Env) (hw : w ≠ .expression) :
      Composed w (changeEnv g)
  | markChecked {w : Extent} (id : ClassId) (hw : w ≠ .expression) : Composed w (markChecked id)
  | inClass {w : Extent} {α : Type} {m : Check α} (id : ClassId) (hw : w ≠ .expression) :
      Composed w m → Composed w (inClass id m)
  | inRoutine {w : Extent} {α : Type} {m : Check α} (routine : Routine) (hw : w.RunsCode) :
      Composed w m → Composed w (inRoutine routine m)
  | inLoop {w : Extent} {α : Type} {m : Check α} (hw : w.RunsCode) :
      Composed w m → Composed w (inLoop m)

/-- The computation is put together from steps that neither move the cursor nor break off. It
reports no token, and the classes that are known stay known. -/
inductive Steady : Extent → {α : Type} → Check α → Prop
  | pure {w : Extent} {α : Type} (a : α) : Steady w (Pure.pure a)
  | bind {w : Extent} {α β : Type} {m : Check α} {f : α → Check β} :
      Steady w m → (∀ a, Steady w (f a)) → Steady w (m >>= f)
  | look {w : Extent} {α : Type} (g : State → α) : Steady w (look g)
  | reportBy {w : Extent} {faults : Options → Env → List Fault} (h : Reported w faults)
      (hquiet : ∀ o env, ∀ fault ∈ faults o env, fault.cause.isToken = false) :
      Steady w (reportBy faults)
  | compile {w : Extent} (descriptor : String) : Steady w (compile descriptor)
  | declareNew {w : Extent} (name : String) (type : Ty) (isAnnotated : Bool) :
      Steady w (declareNew name type isAnnotated)
  | setVariable {w : Extent} (name : String) (type : Ty) (isAnnotated : Bool)
      (hw : w ≠ .expression) : Steady w (setVariable name type isAnnotated)
  | changeEnv {w : Extent} {α : Type} (g : Env → α × Env) (hw : w ≠ .expression)
      (hgrows : ∀ env : Env, env.classes.Grows (g env).2.classes) : Steady w (changeEnv g)
  | markChecked {w : Extent} (id : ClassId) (hw : w ≠ .expression) : Steady w (markChecked id)

lemma Steady.composed (h : Steady w m) : Composed w m := by
  induction h with
  | pure a => exact .pure a
  | bind _ _ ihm ihf => exact ihm.bind ihf
  | look g => exact .look g
  | reportBy h _ => exact .reportBy h
  | compile descriptor => exact .compile descriptor
  | declareNew name type isAnnotated => exact .declareNew name type isAnnotated
  | setVariable name type isAnnotated hw => exact .setVariable name type isAnnotated hw
  | changeEnv g hw _ => exact .changeEnv g hw
  | markChecked id hw => exact .markChecked id hw

lemma entries_prefix_foldl_addFault (faults : List Fault) (log : Log) :
    log.entries <+: (faults.foldl Log.addFault log).entries := by
  induction faults generalizing log with
  | nil => exact List.prefix_refl _
  | cons fault faults ih => exact (Log.entries_prefix_add log _).trans (ih _)

/-- A computation that does not move reads on, and does not run out of depth. -/
lemma Steady.reads {n : Nat} (h : Steady w m) : Reads w n m := by
  induction h with
  | pure a => exact .pure
  | bind _ _ ihm ihf => exact ihm.bind ihf
  | look g => exact fun s hs _ => ⟨.refl _ s, hs, False.elim⟩
  | reportBy _ _ =>
      exact fun s hs _ => ⟨{ Change.refl _ s with log := entries_prefix_foldl_addFault _ _ }, hs,
        False.elim⟩
  | compile descriptor =>
      exact fun s hs _ => ⟨{ Change.refl _ s with types := TypeCache.entries_prefix_compile _ _ _ },
        hs, False.elim⟩
  | declareNew name type isAnnotated =>
      intro s
      by_cases h : s.scope.lookup name = none
      · have heq : Check.declareNew name type isAnnotated s =
            Check.setVariable name type isAnnotated s := by
          rw [Check.declareNew, h]
          rfl
        rw [Runs, heq]
        exact runs_setVariable h type isAnnotated
      · rw [Runs, Check.declareNew, if_neg (by simpa using h)]
        exact fun hs _ => ⟨.refl _ s, hs, False.elim⟩
  | setVariable name type isAnnotated hw =>
      exact fun s hs _ => ⟨{ Change.refl _ s with scope := fun h => absurd h hw }, hs, False.elim⟩
  | changeEnv g hw _ =>
      exact fun s hs _ => ⟨{ Change.refl _ s with env := fun h => absurd h hw }, hs, False.elim⟩
  | markChecked id hw =>
      exact fun s hs _ => ⟨{ Change.refl _ s with checked := fun h => absurd h hw }, hs,
        False.elim⟩

attribute [grind ←] Composed.pure Composed.bind Composed.recover Composed.setVariable
  Composed.inLoop Steady.composed Steady.pure Steady.bind Steady.setVariable

/-! ### Looking at the state -/

/-- What is done may depend on the whole state, as long as the log and the options do not
matter. -/
lemma get_bind_eq {f : State → Check β} (hbare : ∀ s, f s.bare = f s) :
    (MonadState.get >>= f : Check β) = look id >>= f := by
  funext s
  show f s s = f s.bare s
  rw [hbare]

lemma Composed.get {f : State → Check β} (hf : ∀ s, Composed w (f s))
    (hbare : ∀ s, f s.bare = f s) : Composed w (MonadState.get >>= f) := by
  rw [get_bind_eq hbare]
  exact (Composed.look id).bind hf

lemma Steady.get {f : State → Check β} (hf : ∀ s, Steady w (f s))
    (hbare : ∀ s, f s.bare = f s) : Steady w (MonadState.get >>= f) := by
  rw [get_bind_eq hbare]
  exact (Steady.look id).bind hf

@[grind ←]
lemma Steady.map (g : α → β) (h : Steady w m) : Steady w (g <$> m) := by
  rw [map_eq_pure_bind]
  exact h.bind fun a => .pure _

lemma Steady.ite {p : Prop} [Decidable p] {m' : Check α} (h : Steady w m) (h' : Steady w m') :
    Steady w (if p then m else m') := by
  split
  · exact h
  · exact h'

@[grind ←]
lemma Composed.map (g : α → β) (h : Composed w m) : Composed w (g <$> m) := by
  rw [map_eq_pure_bind]
  exact h.bind fun a => .pure _

lemma Composed.ite {p : Prop} [Decidable p] {m' : Check α} (h : Composed w m)
    (h' : Composed w m') : Composed w (if p then m else m') := by
  split
  · exact h
  · exact h'

@[grind ←]
lemma composed_cursor : Composed w cursor := .look (·.cursor)

@[grind ←]
lemma composed_current : Composed w current := .look (·.cursor.current)

@[grind ←]
lemma composed_kind : Composed w kind := .look (·.cursor.kind)

@[grind ←]
lemma composed_kindAhead {n : Nat} : Composed w (kindAhead n) := .look (·.cursor.kindAhead n)

@[grind ←]
lemma composed_position : Composed w position := .look (·.cursor.position)

@[grind ←]
lemma composed_positionOf {token : Token} : Composed w (positionOf token) :=
  .look fun s => (⟨token.start, s.cursor.file⟩ : Position)

@[grind ←]
lemma composed_bound : Composed w bound := .look (·.cursor.remaining + 1)

@[grind ←]
lemma steady_classes : Steady w classes := .look (·.env.classes)

@[grind ←]
lemma steady_className {id : ClassId} : Steady w (className id) :=
  .look (·.env.classes.nameOf id)

@[grind ←]
lemma steady_variableNamed? (name : String) : Steady w (variableNamed? name) :=
  .look (·.scope.lookup name)

@[grind ←]
lemma steady_classNamed? {name : String} : Steady w (classNamed? name) := by
  refine .get (fun s => ?_) fun s => rfl
  split
  · exact .pure _
  · split
    · exact .pure _
    · exact .pure _

/-! ### Breaking off -/

@[grind ←]
lemma composed_spent : Composed w (throw .spent : Check α) :=
  .halt (fun _ => .spent) fun _ _ h => nomatch h

@[grind ←]
lemma composed_fail {cause : Cause} (h : cause.BreaksOff) (position : Position) :
    Composed w (fail cause position : Check α) :=
  .halt (fun _ => .fault ⟨cause, position⟩) fun s fault hfault => by
    cases hfault
    exact h

@[grind ←]
lemma composed_reject : Composed w (reject : Check α) :=
  .halt (fun s => .fault s.cursor.rejection) fun s fault hfault => by
    cases hfault
    exact .unexpected _

@[grind ←]
lemma composed_rejectToken (token : Token) : Composed w (rejectToken token : Check α) :=
  composed_positionOf.bind fun _ => composed_fail (.unexpected _) _

/-! ### Moving the cursor -/

/-- A step of the cursor changes its place only. -/
lemma advance_eq_place (c : Cursor) : c.advance = { c with index := c.advance.index } := by
  rw [Cursor.advance]
  split <;> rfl

@[grind ←]
lemma composed_advance : Composed w advance :=
  .move (fun c => (.ok c.current, c.advance)) (fun _ _ h => nomatch h) advance_eq_place
    fun _ c hc => ⟨c.onward_advance, hc.advance⟩

lemma composed_rewind : Composed .file rewind :=
  .move (fun c => (.ok (), c.moveTo 0)) (fun _ _ h => nomatch h) (fun _ => rfl)
    fun hw => absurd rfl hw

lemma eq_advance_of_pass? {c next : Cursor} {kind : Kind} (h : c.pass? kind = some next) :
    next = c.advance := by
  rw [Cursor.pass?] at h
  split at h
  · exact (Option.some.inj h).symm
  · cases h

/-- A token that is passed if it is of the kind. -/
lemma composed_pass (kind : Kind) {missing : Cursor → Except Fault α} (given : Cursor → α)
    (h : ∀ c fault, missing c = .error fault → fault.cause.BreaksOff) :
    Composed w (move fun c =>
      (c.pass? kind).elim (missing c, c) fun next => (.ok (given c), next)) := by
  refine .move _ (fun c fault => ?_) (fun c => ?_) fun _ c hc => ?_
  all_goals cases hpass : c.pass? kind
  case refine_1.none => exact h c fault
  case refine_1.some => exact fun h => nomatch h
  case refine_2.none => rfl
  case refine_2.some => exact eq_advance_of_pass? hpass ▸ advance_eq_place c
  case refine_3.none => exact ⟨.refl c, hc⟩
  case refine_3.some => exact eq_advance_of_pass? hpass ▸ ⟨c.onward_advance, hc.advance⟩

lemma require_eq (kind : Kind) : require kind = move fun c =>
    (c.pass? kind).elim (.error (c.missing kind), c) fun next => (.ok c.current, next) := by
  funext s
  rw [require_run, move]
  cases s.cursor.pass? kind <;> rfl

@[grind ←]
lemma composed_require {kind : Kind} : Composed w (require kind) := by
  rw [require_eq]
  refine composed_pass kind (·.current) fun c fault hfault => ?_
  cases hfault
  exact .misplaced _ _

lemma takes_eq (kind : Kind) : takes kind = move fun c =>
    (c.pass? kind).elim (.ok false, c) fun next => (.ok true, next) := by
  funext s
  rw [takes_run, move]
  cases s.cursor.pass? kind <;> rfl

@[grind ←]
lemma composed_takes {kind : Kind} : Composed w (takes kind) := by
  rw [takes_eq]
  exact composed_pass kind (fun _ => true) fun _ _ h => nomatch h

section Steps

variable {β : Type} {kind : Kind} {token : Token}

lemma Composed.onKind {f : Kind → Check β} (hf : ∀ a, Composed w (f a)) :
    Composed w (Check.kind >>= f) :=
  .bind composed_kind hf

lemma Composed.positionOf {f : Position → Check β} (hf : ∀ a, Composed w (f a)) :
    Composed w (Check.positionOf token >>= f) :=
  .bind composed_positionOf hf

lemma Composed.bound {f : Nat → Check β} (hf : ∀ a, Composed w (f a)) :
    Composed w (Check.bound >>= f) :=
  .bind composed_bound hf

lemma Composed.advance {f : Token → Check β} (hf : ∀ a, Composed w (f a)) :
    Composed w (Check.advance >>= f) :=
  .bind composed_advance hf

lemma Composed.require {f : Token → Check β} (hf : ∀ a, Composed w (f a)) :
    Composed w (Check.require kind >>= f) :=
  .bind composed_require hf

lemma Composed.takes {f : Bool → Check β} (hf : ∀ a, Composed w (f a)) :
    Composed w (Check.takes kind >>= f) :=
  .bind composed_takes hf

end Steps

lemma passBlock_eq : passBlock = move Cursor.passBlock := by
  funext s
  rw [passBlock_run, move]
  cases s.cursor.passBlock.1 <;> rfl

@[grind ←]
lemma composed_passBlock : Composed w passBlock := by
  rw [passBlock_eq]
  refine .move _ (fun c fault => ?_) (fun c => ?_) fun _ c hc =>
    ⟨hc.passBlock.1, hc.passBlock.2.1⟩
  · rw [Cursor.passBlock]
    split
    · dsimp only
      split
      · intro h
        cases h
      · intro h
        cases h
        exact .unexpected _
    · intro h
      cases h
      exact .misplaced _ _
  · rw [Cursor.passBlock, advance_eq_place]
    split
    · dsimp only
      split <;> rfl
    · rfl

/-! ### Reports -/

/-- A report that does not depend on the options. -/
@[grind ←]
lemma composed_report {cause : Cause} (h : cause.isOptional = false) {position : Position} :
    Composed w (report cause position) :=
  .reportBy (.always ⟨cause, position⟩ h)

@[grind ←]
lemma steady_report {cause : Cause} (h : cause.isOptional = false) (htoken : cause.isToken = false)
    {position : Position} : Steady w (report cause position) :=
  .reportBy (.always ⟨cause, position⟩ h) fun _ _ _ hfault => List.mem_singleton.mp hfault ▸ htoken

lemma not_isToken_of_isMismatch {cause : Cause} (h : cause.isMismatch = true) :
    cause.isToken = false := by
  cases cause <;> first | rfl | cases h

lemma accepts_bind (target source : Ty) (g : Bool → Check β) (s : State) :
    (accepts target source >>= g) s = g (target.accepts s.env.classes s.options.strict source) s :=
  rfl

/-- A report of something that is not accepted, and what follows it. -/
lemma steady_refuse (target source : Ty) (cause : Cause) (h : cause.isMismatch = true)
    (position : Position) {g : Unit → Check β} (hg : ∀ u, Steady w (g u)) :
    Steady w (accepts target source >>= fun accepted =>
      if accepted = true then g () else report cause position >>= g) := by
  have heq : (accepts target source >>= fun accepted =>
      if accepted = true then g () else report cause position >>= g) =
      reportBy (fun o env =>
        if target.accepts env.classes o.strict source then [] else [⟨cause, position⟩]) >>= g := by
    funext s
    rw [accepts_bind]
    show _ = g () { s with log :=
      (if target.accepts s.env.classes s.options.strict source then []
        else [⟨cause, position⟩]).foldl Log.addFault s.log }
    by_cases haccepts : target.accepts s.env.classes s.options.strict source = true
    · rw [if_pos haccepts, if_pos haccepts]
      rfl
    · rw [if_neg haccepts, if_neg haccepts]
      rfl
  rw [heq]
  refine (Steady.reportBy (.refused target source ⟨cause, position⟩ h) fun o env => ?_).bind hg
  split
  · simp
  · simpa using not_isToken_of_isMismatch h

@[grind ←]
lemma steady_checkType {expected received : Ty} {position : Position} :
    Steady w (checkType expected received position) := by
  have hrefuse := steady_refuse (w := w) expected received
    (.typeMismatch expected.display received.display) rfl position Steady.pure
  rw [checkType]
  simpa only [bind_pure] using hrefuse

/-! ### Types -/

@[grind ←]
lemma steady_typeOf {descriptor : String} : Steady w (typeOf descriptor) := by
  refine (Steady.compile descriptor).bind fun result => ?_
  cases result with
  | ok type => exact .pure _
  | error e => exact .pure _

@[grind ←]
lemma steady_mixed : Steady w mixed := steady_typeOf

@[grind ←]
lemma steady_noteType {descriptor : String} {position : Position} :
    Steady w (noteType descriptor position) := by
  refine .get (fun s => (Steady.compile _).bind fun result => ?_) fun s => rfl
  cases result with
  | ok type => exact .pure _
  | error e => exact (steady_report rfl rfl).bind fun _ => steady_mixed

@[grind ←]
lemma steady_instanceType {id : ClassId} : Steady w (instanceType id) :=
  steady_className.bind fun _ => steady_typeOf

@[grind ←]
lemma composed_modifyEnv (hw : w ≠ .expression) {g : Env → Env} : Composed w (modifyEnv g) :=
  .changeEnv (fun env => ((), g env)) hw

lemma steady_modifyEnv (hw : w ≠ .expression) {g : Env → Env}
    (hgrows : ∀ env : Env, env.classes.Grows (g env).classes) : Steady w (modifyEnv g) :=
  .changeEnv (fun env => ((), g env)) hw hgrows

/-- What a part may do, the statements and the file around it may. -/
lemma Composed.widen {w' : Extent} (h : Composed w m) (hw' : w'.RunsCode)
    (hfile : w = .file → w' = .file) : Composed w' m := by
  have hne : w' ≠ .expression := by
    rcases hw' with rfl | rfl
    · nofun
    · nofun
  induction h with
  | pure a => exact .pure a
  | bind _ _ ihm ihf => exact .bind ihm ihf
  | look g => exact .look g
  | halt g hg => exact .halt g hg
  | move g hg hplace honward => exact .move g hg hplace fun h => honward fun heq => h (hfile heq)
  | reportBy hfaults =>
      cases hfaults with
      | always fault hplain => exact .reportBy (.always fault hplain)
      | unreachable _ position => exact .reportBy (.unreachable hw' position)
      | undeclared routine position raised => exact .reportBy (.undeclared routine position raised)
      | refused target source fault hfault => exact .reportBy (.refused target source fault hfault)
  | compile descriptor => exact .compile descriptor
  | declareNew name type isAnnotated => exact .declareNew name type isAnnotated
  | recover fallback _ ih => exact .recover fallback ih
  | setVariable name type isAnnotated _ => exact .setVariable _ _ _ hne
  | changeEnv g _ => exact .changeEnv g hne
  | markChecked id _ => exact .markChecked id hne
  | inClass id _ _ ih => exact .inClass id hne ih
  | inRoutine routine _ _ ih => exact .inRoutine routine hw' ih
  | inLoop _ _ ih => exact .inLoop hw' ih

/-! ### What a computation does to the state -/

/-- The state in which a computation ended. -/
def endState : EStateM.Result Halt State α → State
  | .ok _ s => s
  | .error _ s => s

/-- After a part that ran in another context, the context is given back. -/
lemma endState_within (enter : State → State) (leave : State → State → State) (m : Check α)
    (s : State) : endState (within enter leave m s) = leave s (endState (m (enter s))) := by
  rw [within]
  cases m (enter s) <;> rfl

lemma exists_of_within {enter : State → State} {leave : State → State → State} {a : α}
    {s' : State} (h : within enter leave m s = .ok a s') :
    ∃ u, m (enter s) = .ok a u ∧ s' = leave s u := by
  rw [within] at h
  split at h
  case h_1 u hbody =>
    cases h
    exact ⟨u, hbody, rfl⟩
  case h_2 => cases h

/-- A part that ran in another context has broken off there. -/
lemma exists_of_within_error {enter : State → State} {leave : State → State → State} {e : Halt}
    {s' : State} (h : within enter leave m s = .error e s') :
    ∃ u, m (enter s) = .error e u ∧ s' = leave s u := by
  rw [within] at h
  split at h
  case h_1 => cases h
  case h_2 u hbody =>
    cases h
    exact ⟨u, hbody, rfl⟩

/-- A computation breaks off for one of a few causes. -/
lemma Composed.breaksOff (h : Composed w m) {fault : Fault} {t : State}
    (hrun : m s = .error (.fault fault) t) : fault.cause.BreaksOff := by
  induction h generalizing s t with
  | pure a => cases hrun
  | @bind α β m f _ _ ihm ihf =>
      cases hm : m s with
      | ok a s' => exact ihf a ((bind_of_ok hm).symm.trans hrun)
      | error e s' =>
          cases (bind_of_error hm).symm.trans hrun
          exact ihm hm
  | look g => cases hrun
  | halt g hg =>
      have hcause : g s.bare = .fault fault := by
        injection hrun
      exact hg _ _ hcause
  | move g hg _ _ =>
      rw [Check.move] at hrun
      cases hmove : (g s.cursor).1 with
      | ok a => rw [hmove] at hrun; cases hrun
      | error fault' =>
          rw [hmove] at hrun
          cases hrun
          exact hg _ _ hmove
  | reportBy _ => cases hrun
  | compile descriptor => cases hrun
  | declareNew name type isAnnotated =>
      rw [Check.declareNew] at hrun
      split at hrun <;> cases hrun
  | recover fallback _ _ => exact absurd hrun recover_ne_fault
  | setVariable name type isAnnotated _ => cases hrun
  | changeEnv g _ => cases hrun
  | markChecked id _ => cases hrun
  | inClass id _ _ ih =>
      obtain ⟨_, hm, -⟩ := exists_of_within_error hrun
      exact ih hm
  | inRoutine routine _ _ ih =>
      obtain ⟨_, hm, -⟩ := exists_of_within_error hrun
      exact ih hm
  | inLoop _ _ ih =>
      obtain ⟨_, hm, -⟩ := exists_of_within_error hrun
      exact ih hm

/-- Passing over a broken statement changes the place of the cursor only. -/
lemma resume_eq_place {c : Cursor} {start : Nat} :
    c.resume start = { c with index := (c.resume start).index } := by
  rw [Cursor.resume]
  split
  · rw [advance_eq_place]
  · rfl

/-- The second state is reached from the first by what the steps of an extent do. -/
inductive Effects (w : Extent) : State → State → Prop
  | refl (s : State) : Effects w s s
  | trans {s t u : State} : Effects w s t → Effects w t u → Effects w s u
  | move {s : State} {c : Cursor} (hplace : c = { s.cursor with index := c.index })
      (honward : w ≠ .file → s.cursor.IsProper → s.cursor.Onward c ∧ c.IsProper) :
      Effects w s { s with cursor := c }
  | report (s : State) {faults : Options → Env → List Fault} (h : Reported w faults) :
      Effects w s { s with log := (faults s.options s.env).foldl Log.addFault s.log }
  | breakOff (s : State) {fault : Fault} (h : fault.cause.BreaksOff) :
      Effects w s { s with log := s.log.addFault fault }
  | compile (s : State) (descriptor : String) : Effects w s (endState (compile descriptor s))
  | declare {s : State} {name : String} (h : s.scope.lookup name = none) (type : Ty)
      (isAnnotated : Bool) : Effects w s (endState (setVariable name type isAnnotated s))
  | setVariable (s : State) (name : String) (type : Ty) (isAnnotated : Bool)
      (hw : w ≠ .expression) : Effects w s (endState (setVariable name type isAnnotated s))
  | changeEnv (s : State) (env : Env) (hw : w ≠ .expression) : Effects w s { s with env := env }
  | markChecked (s : State) (id : ClassId) (hw : w ≠ .expression) :
      Effects w s { s with checked := id :: s.checked }
  | inClass {s s' : State} {id : ClassId} (hw : w ≠ .expression) :
      Effects w { s with inClass := some id } s' → Effects w s { s' with inClass := s.inClass }
  | inRoutine {s s' : State} {routine : Routine} (hw : w.RunsCode) :
      Effects w { s with
        scope := [], routine := some routine, inClass := routine.owner, loopDepth := 0 } s' →
      Effects w s { s' with
        scope := s.scope, routine := s.routine, inClass := s.inClass, loopDepth := s.loopDepth }
  | inLoop {s s' : State} (hw : w.RunsCode) :
      Effects w { s with loopDepth := s.loopDepth + 1 } s' →
      Effects w s { s' with loopDepth := s.loopDepth }

/-- However a computation ends, its steps have led there. -/
lemma Composed.effects (h : Composed w m) (s : State) : Effects w s (endState (m s)) := by
  induction h generalizing s with
  | pure a => exact .refl s
  | @bind α β m f _ _ ihm ihf =>
      have hm := ihm s
      cases hrun : m s with
      | ok a t =>
          rw [hrun] at hm
          rw [bind_of_ok hrun]
          exact hm.trans (ihf a t)
      | error e t =>
          rw [hrun] at hm
          rw [bind_of_error hrun]
          exact hm
  | look g => exact .refl s
  | halt g _ => exact .refl s
  | move g _ hplace honward =>
      cases hmove : (g s.cursor).1 with
      | ok a =>
          rw [move_of_ok hmove]
          exact .move (hplace _) fun hw => honward hw _
      | error fault =>
          rw [move_of_error hmove]
          exact .move (hplace _) fun hw => honward hw _
  | reportBy h => exact .report s h
  | compile descriptor => exact .compile s descriptor
  | declareNew name type isAnnotated =>
      rw [Check.declareNew]
      split
      case isTrue hnew => exact .declare (Option.isNone_iff_eq_none.mp hnew) type isAnnotated
      case isFalse => exact .refl s
  | @recover α m fallback hbody ih =>
      have hm := ih s
      cases hrun : m s with
      | ok a t =>
          rw [hrun] at hm
          rw [recover_of_ok hrun]
          exact hm
      | error e t =>
          rw [hrun] at hm
          cases e with
          | spent =>
              rw [recover_of_spent hrun]
              exact hm
          | fault fault =>
              rw [recover_of_fault hrun]
              -- the fault is reported, and then the cursor moves past the broken statement
              exact (hm.trans (.breakOff t (hbody.breaksOff hrun))).trans
                (.move resume_eq_place fun _ ht => ht.resume _)
  | setVariable name type isAnnotated hw => exact .setVariable s name type isAnnotated hw
  | changeEnv g hw => exact .changeEnv s _ hw
  | markChecked id hw => exact .markChecked s id hw
  | inClass id hw _ ih =>
      rw [Check.inClass, endState_within]
      exact .inClass hw (ih _)
  | inRoutine routine hw _ ih =>
      rw [Check.inRoutine, endState_within]
      exact .inRoutine hw (ih _)
  | inLoop hw _ ih =>
      rw [Check.inLoop, endState_within]
      exact .inLoop hw (ih _)

lemma Composed.effects_of_ok (h : Composed w m) {a : α} {s' : State} (hrun : m s = .ok a s') :
    Effects w s s' := by
  have heffects := h.effects s
  rw [hrun] at heffects
  exact heffects

/-- Unless a file is read again, the cursor does not go back. -/
lemma Effects.onward {s s' : State} (h : Effects w s s') (hw : w ≠ .file) (hs : s.cursor.IsProper) :
    s.cursor.Onward s'.cursor ∧ s'.cursor.IsProper := by
  induction h with
  | trans _ _ hm hf =>
      obtain ⟨hon, hs'⟩ := hm hs
      obtain ⟨hon', hs''⟩ := hf hs'
      exact ⟨hon.trans hon', hs''⟩
  | move _ honward => exact honward hw hs
  | inClass _ _ hm => exact hm hs
  | inRoutine _ _ hm => exact hm hs
  | inLoop _ _ hm => exact hm hs
  | _ => exact ⟨.refl _, hs⟩

/-- Whatever is read, the log has changed by reports of faults. -/
lemma Effects.log_eq {s s' : State} (h : Effects w s s') :
    ∃ faults : List Fault, s'.log = faults.foldl Log.addFault s.log := by
  induction h with
  | trans _ _ hm hf =>
      obtain ⟨faults, hm⟩ := hm
      obtain ⟨faults', hf⟩ := hf
      exact ⟨faults ++ faults', by rw [hf, List.foldl_append, hm]⟩
  | report s _ => exact ⟨_, rfl⟩
  | @breakOff s fault _ => exact ⟨[fault], rfl⟩
  | inClass _ _ hm => exact hm
  | inRoutine _ _ hm => exact hm
  | inLoop _ _ hm => exact hm
  | _ => exact ⟨[], rfl⟩

/-- Reports are only added. -/
lemma Composed.entries_prefix (h : Composed w m) (s : State) :
    s.log.entries <+: (endState (m s)).log.entries := by
  obtain ⟨faults, hlog⟩ := (h.effects s).log_eq
  rw [hlog]
  exact entries_prefix_foldl_addFault faults s.log

/-! ### Contexts -/

/-- The options, the least severity that is logged, and the context are the same. -/
structure SameContext (s s' : State) : Prop where
  options : s'.options = s.options
  least : s'.log.least = s.log.least
  routine : s'.routine = s.routine
  inClass : s'.inClass = s.inClass
  loopDepth : s'.loopDepth = s.loopDepth

lemma SameContext.refl (s : State) : SameContext s s := ⟨rfl, rfl, rfl, rfl, rfl⟩

lemma SameContext.trans {s s' s'' : State} (h : SameContext s s') (h' : SameContext s' s'') :
    SameContext s s'' where
  options := h'.options.trans h.options
  least := h'.least.trans h.least
  routine := h'.routine.trans h.routine
  inClass := h'.inClass.trans h.inClass
  loopDepth := h'.loopDepth.trans h.loopDepth

lemma least_foldl_addFault (faults : List Fault) (log : Log) :
    (faults.foldl Log.addFault log).least = log.least := by
  induction faults generalizing log with
  | nil => rfl
  | cons fault faults ih =>
      rw [List.foldl_cons, ih, Log.addFault, Log.add]
      split <;> rfl

lemma Effects.context {s s' : State} (h : Effects w s s') : SameContext s s' := by
  induction h with
  | refl s => exact .refl s
  | trans _ _ hm hf => exact hm.trans hf
  | report s _ => exact ⟨rfl, least_foldl_addFault _ _, rfl, rfl, rfl⟩
  | @breakOff s fault _ => exact ⟨rfl, least_foldl_addFault [fault] s.log, rfl, rfl, rfl⟩
  | inClass _ _ hm => exact ⟨hm.options, hm.least, hm.routine, rfl, hm.loopDepth⟩
  | inRoutine _ _ hm => exact ⟨hm.options, hm.least, rfl, rfl, rfl⟩
  | inLoop _ _ hm => exact ⟨hm.options, hm.least, hm.routine, hm.inClass, rfl⟩
  | _ => exact ⟨rfl, rfl, rfl, rfl, rfl⟩

/-- However a computation ends, it gives the options and the context back. -/
lemma Composed.context (h : Composed w m) (s : State) : SameContext s (endState (m s)) :=
  (h.effects s).context

/-- An expression leaves what is known by name as it was. -/
lemma Effects.env {s s' : State} (h : Effects .expression s s') : s'.env = s.env := by
  induction h with
  | trans _ _ hm hf => exact hf.trans hm
  | changeEnv _ _ hw => exact absurd rfl hw
  | inClass hw _ _ => exact absurd rfl hw
  | inRoutine hw _ _ => rcases hw with hw | hw <;> cases hw
  | inLoop hw _ _ => rcases hw with hw | hw <;> cases hw
  | _ => rfl

lemma Composed.env_of_ok (h : Composed .expression m) {a : α} {s' : State}
    (hrun : m s = .ok a s') : s'.env = s.env :=
  (h.effects_of_ok hrun).env

end Check

end ScriptCheck
