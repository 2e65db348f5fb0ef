import ScriptCheck.Proofs.Analysis.Composed
import ScriptCheck.Proofs.Layout.Relocation

/-!
Computations that do the same to relocated tokens.

`Law.Agree` relates two computations: run on a state and on the relocated state, they end in the
same way, with related results, in a state and the relocated state. Along the way the states keep a
`Law`, a property of the log, of the compiled types and of the known names that every step of an
analysis keeps; what the law says of a step may use where in the tokens the step is taken.

This module has the rules that put agreeing computations together, and the steps that every reader
uses.
-/

namespace ScriptCheck

/-- The cause is that a class has no member of a name. -/
def Cause.isUnknownMember : Cause → Bool
  | .unknownMember .. => true
  | _ => false

/-- Breaking off is not because of a member that a class does not have. -/
def Halt.IsOrdinary (e : Halt) : Prop :=
  ∀ fault, e = .fault fault → fault.cause.isUnknownMember = false

/-- The second value is what the first is taken to. -/
def Maps {α β : Type} (f : α → β) (a : α) (b : β) : Prop := b = f a

/-- The kind of the token at a place. -/
def kindAt? (tokens : Array Token) (i : Nat) : Option Kind := (tokens[i]?).map (·.kind)

/-- The word means a class by the place where it stands. -/
def isRelativeName (word : String) : Bool :=
  Text.sameIgnoringCase word "self" || Text.sameIgnoringCase word "static"
    || Text.sameIgnoringCase word "parent"

/-- A member is used at a position of a file, under the name that is shown. Of a class that is
reported not to have it something is known: where a constant is accessed, the word before `::` means
the class, and the class has no constant of the name. -/
inductive MemberUse (file : String) (tokens : Array Token) :
    (isMissing : ClassTable → ClassId → Prop) → (shown : String) → Position → Prop
  | constant (i : Nat) (word token : Token) (hword : tokens[i]? = some word)
      (hbefore : kindAt? tokens (i + 1) = some .doubleColon)
      (htoken : tokens[i + 2]? = some token) (hkind : token.kind = .name)
      (hafter : kindAt? tokens (i + 3) ≠ some .openParen) :
      MemberUse file tokens
        (fun t id => (isRelativeName word.value = true ∨ t.idOf? word.value = some id) ∧
          t.constant? id token.value = none)
        token.value ⟨token.start, file⟩
  | property (i : Nat) (token : Token) (shown : String) (htoken : tokens[i + 1]? = some token)
      (hkind : token.kind = .var ∨ kindAt? tokens i = some .arrow) :
      MemberUse file tokens (fun _ _ => True) shown ⟨token.start, file⟩
  | method (i : Nat) (token : Token) (htoken : tokens[i]? = some token)
      (hafter : kindAt? tokens (i + 1) = some .openParen) :
      MemberUse file tokens (fun _ _ => True) token.value ⟨token.start, file⟩

/-- A token that is not the first one of a file has the name, and stands at the position. -/
def IsInnerName (file : String) (tokens : Array Token) (name : String) (p : Position) : Prop :=
  ∃ i token, 0 < i ∧ tokens[i]? = some token ∧ token.kind = .name ∧ name = token.value ∧
    p = ⟨token.start, file⟩

lemma IsInnerName.isInnerPlace {file : String} {tokens : Array Token} {name : String} {p : Position}
    (h : IsInnerName file tokens name p) : IsInnerPlace file tokens p := by
  obtain ⟨i, token, hi, htoken, -, -, hp⟩ := h
  exact ⟨i, token, hi, htoken, hp⟩

namespace Relocation

/-- A property of the log, of the compiled types and of the known names that every step of an
analysis keeps. -/
structure Law (r : Relocation) where
  Holds : Log → TypeCache → Env → Prop
  /-- The classes that a reading of the file may have declared. -/
  Fresh : ClassId → Prop
  report : ∀ {log types env} (cause : Cause) (p : Position), Holds log types env →
    cause.isUnknownMember = false → Holds (log.addFault ⟨cause, p⟩) types env
  unknownMember : ∀ {log types env isMissing shown p} (id : ClassId), Holds log types env →
    MemberUse r.file r.tokens isMissing shown p → isMissing env.classes id →
    Holds (log.addFault ⟨.unknownMember (env.classes.nameOf id) shown, p⟩) types env
  compile : ∀ {log types env} (descriptor : String), Holds log types env →
    Holds log (types.compile env.classes descriptor).2 env
  addFunction : ∀ {log types env} (f : FunctionDecl), Holds log types env →
    Holds log types (env.addFunction f)
  addConstant : ∀ {log types env} (name : String) (type : Ty), Holds log types env →
    Holds log types (env.addConstant name type)
  addClass : ∀ {log types env name p} (isInterface : Bool), Holds log types env →
    IsInnerName r.file r.tokens name p → Holds log types (env.addClass (.stub name isInterface p)).2
  declare : ∀ {log types env id p} (isInterface isAbstract isFinal isUnchecked : Bool)
    (superclass : Option ClassId) (interfaces : List ClassId), Holds log types env →
    (∀ decl ∈ env.classes.get? id, decl.isDeclared = false) → IsInnerPlace r.file r.tokens p →
    Fresh id ∧ Holds log types (env.modifyClass id
      (.declare isInterface isAbstract isFinal isUnchecked p superclass interfaces))
  addMember : ∀ {log types env id g}, Holds log types env → Fresh id → AddsMember g →
    Holds log types (env.modifyClass id g)
  /-- Where a class with a faulty inheritance is reported. -/
  placed : ∀ {log types env id decl}, Holds log types env → env.classes.get? id = some decl →
    Check.inheritanceFaults env.classes id ≠ [] → r.origin decl.position = r.position decl.position

namespace Law

variable {r : Relocation} (K : r.Law) (least : Nat)

/-- The law holds of the state, and its cursor stands in the tokens, not before the given place. -/
structure Fits (s : State) : Prop where
  proper : s.cursor.IsProper
  tokens : s.cursor.tokens = r.tokens
  file : s.cursor.file = r.file
  reached : least ≤ s.cursor.index
  holds : K.Holds s.log s.types s.env

/-- Two computations ended in the same way, in a state and in the relocated state. -/
inductive Results {α β : Type} (R : α → β → Prop) :
    EStateM.Result Halt State α → EStateM.Result Halt State β → Prop
  | ok {a : α} {b : β} {s : State} : R a b → K.Fits least s →
      Results R (.ok a s) (.ok b (r.state s))
  | error {e : Halt} {s : State} : e.IsOrdinary → K.Fits least s →
      Results R (.error e s) (.error (r.halt e) (r.state s))

/-- The second computation does to the relocated state what the first does to the state. -/
def Agree {α β : Type} (R : α → β → Prop) (m : Check α) (n : Check β) : Prop :=
  ∀ s, K.Fits least s → K.Results least R (m s) (n (r.state s))

/-- The computation does to the relocated state what it does to the state. -/
abbrev Alike {α : Type} (R : α → α → Prop) (m : Check α) : Prop := K.Agree least R m m

/-- The computations agree on states of a property. -/
def AgreeIf {α β : Type} (P : State → Prop) (R : α → β → Prop) (m : Check α) (n : Check β) : Prop :=
  ∀ s, K.Fits least s → P s → K.Results least R (m s) (n (r.state s))

end Law

/-- The token stands in the file, not before the given place. -/
def Has (r : Relocation) (least : Nat) (token : Token) : Prop :=
  ∃ i, least ≤ i ∧ r.tokens[i]? = some token

/-- The second token is the first, which stands not before the given place, at its new place. -/
def SameToken (r : Relocation) (least : Nat) (a b : Token) : Prop :=
  r.Has least a ∧ b = r.token a

/-- The second position is that of the token at its new place. -/
def SamePlace (r : Relocation) (token : Token) (p q : Position) : Prop :=
  p = ⟨token.start, r.file⟩ ∧ q = r.position p

/-- A token that is not the first stands at an inner place. -/
lemma Has.isInnerPlace {r : Relocation} {least : Nat} {token : Token} (h : r.Has least token)
    (hleast : 0 < least) : IsInnerPlace r.file r.tokens ⟨token.start, r.file⟩ := by
  obtain ⟨i, hi, htoken⟩ := h
  exact ⟨i, token, hleast.trans_le hi, htoken, rfl⟩

lemma Has.isInnerName {r : Relocation} {least : Nat} {token : Token} (h : r.Has least token)
    (hleast : 0 < least) (hkind : token.kind = .name) :
    IsInnerName r.file r.tokens token.value ⟨token.start, r.file⟩ := by
  obtain ⟨i, hi, htoken⟩ := h
  exact ⟨i, token, hleast.trans_le hi, htoken, hkind, rfl, rfl⟩

namespace Law

variable {r : Relocation} {K : r.Law} {least : Nat} {α β γ δ : Type} {R : α → β → Prop}
  {S : γ → δ → Prop} {m : Check α} {n : Check β} {f : α → Check γ} {g : β → Check δ} {s : State}

/-! ### States -/

lemma Fits.mono {k : Nat} (h : K.Fits k s) (hk : least ≤ k) : K.Fits least s :=
  { h with reached := hk.trans h.reached }

lemma Fits.move {c : Cursor} (h : K.Fits least s) (hc : s.cursor.Onward c) (hproper : c.IsProper) :
    K.Fits least { s with cursor := c } where
  proper := hproper
  tokens := hc.tokens.trans h.tokens
  file := hc.file.trans h.file
  reached := h.reached.trans hc.le
  holds := h.holds

lemma Fits.report (h : K.Fits least s) {cause : Cause} (hcause : cause.isUnknownMember = false)
    (p : Position) : K.Fits least { s with log := s.log.addFault ⟨cause, p⟩ } :=
  { h with holds := K.report cause p h.holds hcause }

lemma Fits.current (h : K.Fits least s) :
    r.SameToken least s.cursor.current (r.state s).cursor.current := by
  refine ⟨⟨s.cursor.index, h.reached, ?_⟩, r.current_cursor h.proper⟩
  have hinside := h.proper.inside
  rw [Cursor.current_eq hinside, ← h.tokens]
  exact Array.getElem?_eq_getElem hinside

lemma Results.mono {R' : α → β → Prop} {x : EStateM.Result Halt State α}
    {y : EStateM.Result Halt State β} (h : K.Results least R x y) (hR : ∀ a b, R a b → R' a b) :
    K.Results least R' x y := by
  cases h with
  | ok hab hs => exact .ok (hR _ _ hab) hs
  | error he hs => exact .error he hs

lemma Results.of_le {k : Nat} {x : EStateM.Result Halt State α} {y : EStateM.Result Halt State β}
    (h : K.Results k R x y) (hk : least ≤ k) : K.Results least R x y := by
  cases h with
  | ok hab hs => exact .ok hab (hs.mono hk)
  | error he hs => exact .error he (hs.mono hk)

/-! ### Putting computations together -/

/-- The rest has to agree on the states that the first part leads to. -/
lemma AgreeIf.bind {P : State → Prop} {Q : α → State → Prop} (hm : K.AgreeIf least P R m n)
    (hQ : ∀ s a s', K.Fits least s → P s → m s = .ok a s' → Q a s')
    (hf : ∀ a b, R a b → K.AgreeIf least (Q a) S (f a) (g b)) :
    K.AgreeIf least P S (m >>= f) (n >>= g) := by
  intro s hs hP
  show K.Results least S (EStateM.bind m f s) (EStateM.bind n g (r.state s))
  rw [EStateM.bind, EStateM.bind]
  have h := hm s hs hP
  have hQ := fun a s' => hQ s a s' hs hP
  generalize m s = x at h hQ ⊢
  generalize n (r.state s) = y at h ⊢
  cases h with
  | ok hab hs => exact hf _ _ hab _ hs (hQ _ _ rfl)
  | error he hs => exact .error he hs

namespace Agree

lemma mono {R' : α → β → Prop} (h : K.Agree least R m n) (hR : ∀ a b, R a b → R' a b) :
    K.Agree least R' m n :=
  fun s hs => (h s hs).mono hR

lemma pure {a : α} {b : β} (h : R a b) : K.Agree least R (Pure.pure a) (Pure.pure b) :=
  fun _ hs => .ok h hs

lemma throw {e : Halt} (h : e.IsOrdinary) :
    K.Agree least R (MonadExcept.throw e) (MonadExcept.throw (r.halt e)) :=
  fun _ hs => .error h hs

/-- A computation that agrees with another one keeps the law. -/
lemma fits {s s' : State} {a : α} (hm : K.Agree least R m n) (hs : K.Fits least s)
    (hok : m s = .ok a s') : K.Fits least s' := by
  have h := hm s hs
  rw [hok] at h
  generalize n (r.state s) = y at h
  cases h with
  | ok _ hs' => exact hs'

/-- However it ends. -/
lemma fits_endState {s : State} (hm : K.Agree least R m n) (hs : K.Fits least s) :
    K.Fits least (Check.endState (m s)) := by
  have h := hm s hs
  generalize m s = x at h ⊢
  generalize n (r.state s) = y at h
  cases h with
  | ok _ hs' => exact hs'
  | error _ hs' => exact hs'

/-- A computation that agrees with another one ends in the relocated state. -/
lemma run {s s' : State} {a : α} {n : Check α} (hm : K.Agree least Eq m n) (hs : K.Fits least s)
    (hok : m s = .ok a s') : n (r.state s) = .ok a (r.state s') := by
  have h := hm s hs
  rw [hok] at h
  generalize n (r.state s) = y at h ⊢
  cases h with
  | ok hab _ => rw [hab]

/-- Whatever the property of the states, if it is implied by what the computations start from. -/
lemma agreeIf {P : State → Prop} (h : K.Agree least R m n) : K.AgreeIf least P R m n :=
  fun s hs _ => h s hs

/-- After a first part that moves the cursor to a place, the rest has to agree from there on. -/
lemma bind_from {k : Nat} (hm : K.Agree least R m n) (hk : least ≤ k)
    (hmoves : ∀ s a s', K.Fits least s → m s = .ok a s' → k ≤ s'.cursor.index)
    (hf : ∀ a b, R a b → K.Agree k S (f a) (g b)) : K.Agree least S (m >>= f) (n >>= g) := by
  have hbind : K.AgreeIf least (fun _ => True) S (m >>= f) (n >>= g) :=
    .bind (Q := fun _ s' => k ≤ s'.cursor.index) hm.agreeIf (fun s a s' hs _ => hmoves s a s' hs)
      fun a b hab s hs hreached => (hf a b hab s { hs with reached := hreached }).of_le hk
  exact fun s hs => hbind s hs trivial

lemma bind (hm : K.Agree least R m n) (hf : ∀ a b, R a b → K.Agree least S (f a) (g b)) :
    K.Agree least S (m >>= f) (n >>= g) :=
  hm.bind_from le_rfl (fun _ _ _ hs hok => (hm.fits hs hok).reached) hf

lemma bind_eq {n : Check α} {g : α → Check δ} (hm : K.Agree least Eq m n)
    (hf : ∀ a, K.Agree least S (f a) (g a)) : K.Agree least S (m >>= f) (n >>= g) :=
  hm.bind fun a _ h => h ▸ hf a

lemma bind_maps {φ : α → β} (hm : K.Agree least (Maps φ) m n)
    (hf : ∀ a, K.Agree least S (f a) (g (φ a))) : K.Agree least S (m >>= f) (n >>= g) :=
  hm.bind fun a _ h => h ▸ hf a

lemma bind_token {m n : Check Token} {f : Token → Check γ} {g : Token → Check δ}
    (hm : K.Agree least (r.SameToken least) m n)
    (hf : ∀ token, r.Has least token → K.Agree least S (f token) (g (r.token token))) :
    K.Agree least S (m >>= f) (n >>= g) :=
  hm.bind fun token _ h => h.2 ▸ hf token h.1

lemma bind_place {token : Token} {m n : Check Position} {f : Position → Check γ}
    {g : Position → Check δ} (hm : K.Agree least (r.SamePlace token) m n)
    (hf : ∀ p, p = ⟨token.start, r.file⟩ → K.Agree least S (f p) (g (r.position p))) :
    K.Agree least S (m >>= f) (n >>= g) :=
  hm.bind fun p _ h => h.2 ▸ hf p h.1

lemma map {φ : α → γ} {ψ : β → δ} (hm : K.Agree least R m n)
    (h : ∀ a b, R a b → S (φ a) (ψ b)) : K.Agree least S (φ <$> m) (ψ <$> n) := by
  have hmap : K.Agree least S (m >>= fun a => Pure.pure (φ a)) (n >>= fun b => Pure.pure (ψ b)) :=
    hm.bind fun a b hab => .pure (h a b hab)
  rwa [bind_pure_comp, bind_pure_comp] at hmap

lemma ite {p : Prop} [Decidable p] {m' : Check α} {n' : Check β}
    (h : p → K.Agree least R m n) (h' : ¬p → K.Agree least R m' n') :
    K.Agree least R (if p then m else m') (if p then n else n') := by
  split
  case isTrue hp => exact h hp
  case isFalse hp => exact h' hp

/-- Looking at the state. -/
lemma get {f : State → Check γ} {g : State → Check δ}
    (h : ∀ s, K.Fits least s → K.Results least S (f s s) (g (r.state s) (r.state s))) :
    K.Agree least S (MonadState.get >>= f) (MonadState.get >>= g) :=
  fun s hs => h s hs

/-- Looking at the state, where it does not matter that it is the state of the moment. -/
lemma look {f : State → Check γ} {g : State → Check δ}
    (h : ∀ s, K.Fits least s → K.Agree least S (f s) (g (r.state s))) :
    K.Agree least S (MonadState.get >>= f) (MonadState.get >>= g) :=
  fun s hs => h s hs s hs

/-- A changed context makes no difference to where things are. -/
lemma within {enter enter' : State → State} {leave leave' : State → State → State}
    (henter : ∀ s, K.Fits least s → K.Fits least (enter s) ∧
      enter' (r.state s) = r.state (enter s))
    (hleave : ∀ s s', K.Fits least s' → K.Fits least (leave s s') ∧
      leave' (r.state s) (r.state s') = r.state (leave s s'))
    (hm : K.Agree least R m n) :
    K.Agree least R (Check.within enter leave m) (Check.within enter' leave' n) := by
  intro s hs
  obtain ⟨hs₁, henter⟩ := henter s hs
  have h := hm _ hs₁
  rw [Check.within, Check.within, henter]
  generalize m (enter s) = x at h ⊢
  generalize n (r.state (enter s)) = y at h ⊢
  cases h with
  | ok hab hs' =>
      dsimp only
      rw [(hleave s _ hs').2]
      exact .ok hab (hleave s _ hs').1
  | error he hs' =>
      dsimp only
      rw [(hleave s _ hs').2]
      exact .error he (hleave s _ hs').1

lemma inRoutine (routine : Routine) (hm : K.Agree least R m n) :
    K.Agree least R (Check.inRoutine routine m) (Check.inRoutine routine n) :=
  hm.within (fun _ hs => ⟨{ hs with }, rfl⟩) fun _ _ hs => ⟨{ hs with }, rfl⟩

lemma inClass (id : ClassId) (hm : K.Agree least R m n) :
    K.Agree least R (Check.inClass id m) (Check.inClass id n) :=
  hm.within (fun _ hs => ⟨{ hs with }, rfl⟩) fun _ _ hs => ⟨{ hs with }, rfl⟩

lemma inLoop (hm : K.Agree least R m n) :
    K.Agree least R (Check.inLoop m) (Check.inLoop n) :=
  hm.within (fun _ hs => ⟨{ hs with }, rfl⟩) fun _ _ hs => ⟨{ hs with }, rfl⟩

/-- Both computations pass over the same broken statement. -/
lemma recover {a : α} {b : β} (hm : K.Agree least R m n) (hab : R a b) :
    K.Agree least R (Check.recover a m) (Check.recover b n) := by
  intro s hs
  have h := hm s hs
  rw [Check.recover, Check.recover]
  generalize m s = x at h ⊢
  generalize n (r.state s) = y at h ⊢
  cases h with
  | ok hab' hs' => exact .ok hab' hs'
  | @error e s' he hs' =>
      cases e with
      | spent => exact .error he hs'
      | fault fault =>
          obtain ⟨honward, hproper⟩ := hs'.proper.resume s.cursor.index
          have hfits := (hs'.report (he fault rfl) fault.position).move honward hproper
          have hstate : { r.state s' with
              log := (r.log s'.log).addFault (r.fault fault)
              cursor := (r.cursor s'.cursor).resume s.cursor.index } =
            r.state { s' with
              log := s'.log.addFault fault
              cursor := s'.cursor.resume s.cursor.index } := by
            rw [r.addFault_log, r.resume_cursor hs'.proper]
            rfl
          have hok : K.Results least R (.ok a _) (.ok b _) := .ok hab hfits
          rw [← hstate] at hok
          exact hok

end Agree

lemma AgreeIf.ite {P : State → Prop} {p : Prop} [Decidable p] {m' : Check α} {n' : Check β}
    (h : p → K.AgreeIf least P R m n) (h' : ¬p → K.AgreeIf least P R m' n') :
    K.AgreeIf least P R (if p then m else m') (if p then n else n') := by
  split
  case isTrue hp => exact h hp
  case isFalse hp => exact h' hp

end Law

end Relocation

end ScriptCheck
