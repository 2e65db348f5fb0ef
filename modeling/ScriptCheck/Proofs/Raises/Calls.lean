import ScriptCheck.Proofs.Raises.Operators
import ScriptCheck.Proofs.Statement.Parses

/-!
What calls raise.

A call should raise what its arguments raise, and what its callee declares if there is one. A call
has one of five forms (`CallForm`): of a function, of a method of an object or of a class, of a
constructor, or of a value. Only the two forms with a method can fail to find it in a class that is
known (`CallForm.MissesMethod`).

* `gathers_call`: for each form, what a call raises, compared with the arguments that were read. The
  callee is looked up after the arguments; reading them leaves the names as they are
  (`leavesNames_exprWithin`), so the callee is that of the state before.
* `call_keeps_raises`: nothing is lost unless a method is missing. Then all that the arguments raise
  is.
-/

namespace ScriptCheck.Check

variable {part : Facts} {expr : ExprReader} {s : State}

/-! ### Readers that leave names and the context as they are -/

/-- A result is given with the same names and in the same class. -/
def LeavesNames (expr : ExprReader) : Prop :=
  ∀ {args : List Facts} {s s' : State}, arguments expr s = .ok args s' →
    s'.env = s.env ∧ s'.inClass = s.inClass

lemma leavesNames_exprWithin (depth : Nat) : LeavesNames (exprWithin depth) := by
  intro args s s' hrun
  have hcomposed : Composed .expression (arguments (exprWithin depth)) :=
    composed_arguments (composed_exprWithin depth)
  have henv := (hcomposed.effects s).env
  have hclass := (hcomposed.context s).inClass
  rw [hrun] at henv hclass
  exact ⟨henv, hclass⟩

/-! ### Forms of calls -/

/-- The forms of a call, with what stands before the cursor. -/
inductive CallForm where
  | function
  | method (object : Facts)
  | staticMethod
  | creation
  | value (callee : Facts)

namespace CallForm

/-- The reader of the calls of a form. -/
def reader : CallForm → ExprReader → Check Facts
  | function, expr => nameUse expr
  | method object, expr => memberAccess expr object
  | staticMethod, expr => nameUse expr
  | creation, expr => instanceCreation expr
  | value callee, expr => valueCall expr callee

/-- A call of the form stands at the cursor. -/
def IsAt : CallForm → Cursor → Prop
  | function, c => c.kind = .name ∧ c.advance.kind = .openParen
  | method _, c =>
      c.kind = .arrow ∧ c.advance.kind = .name ∧ c.advance.advance.kind = .openParen
  | staticMethod, c =>
      (c.kind = .name ∨ c.kind = .kwStatic) ∧ c.advance.kind = .doubleColon ∧
        c.advance.advance.kind = .name ∧ c.advance.advance.advance.kind = .openParen
  | creation, c => c.kind = .kwNew
  | value _, c => c.kind = .openParen

/-- The class whose method is called, if it is known. -/
def receiver? : CallForm → State → Option ClassId
  | method object, _ => object.type.class?
  | staticMethod, s => s.classNamed? s.cursor.current.value
  | _, _ => none

/-- The name after the arrow or the colons. -/
def methodName : CallForm → State → String
  | method _, s => s.cursor.advance.current.value
  | _, s => s.cursor.advance.advance.current.value

/-- The signature of what is called, if it is found. -/
def callee? : CallForm → State → Option Signature
  | function, s => (s.env.function? s.cursor.current.value).map (·.signature)
  | creation, s => ((s.classNamed? s.cursor.advance.current.value).bind
      s.env.classes.constructorOf?).map (·.signature)
  | form, s => ((form.receiver? s).bind
      (called? s.env.classes · (form.methodName s))).map (·.signature)

/-- What stands before the call raises. -/
def receiverRaises : CallForm → NatSet
  | method object => object.raises
  | value callee => callee.raises
  | _ => ∅

/-- The class is known but does not have the method. -/
def MissesMethod (form : CallForm) (s : State) : Prop :=
  ∃ id ∈ form.receiver? s, called? s.env.classes id (form.methodName s) = none

lemma not_missesMethod {form : CallForm} (h : form.receiver? s = none) : ¬ form.MissesMethod s := by
  rintro ⟨id, hid, -⟩
  rw [h] at hid
  cases hid

end CallForm

/-- What a call raises: what its arguments raise and what its callee declares. -/
def CallRaises (callee : Option Signature) (args : List Facts) (r : Facts) (_ : State) : Prop :=
  allRaises args ⊆ r.raises ∧ ∀ signature ∈ callee, NatSet.ofList signature.throws ⊆ r.raises

lemma callRaises_none {args : List Facts} {r : Facts} (h : allRaises args ⊆ r.raises) :
    CallRaises none args r s := by
  refine ⟨h, fun signature hsignature => ?_⟩
  cases hsignature

lemma callRaises_some {signature : Signature} {args : List Facts} {r : Facts}
    (h : NatSet.ofList signature.throws ∪ allRaises args ⊆ r.raises) :
    CallRaises (some signature) args r s := by
  obtain ⟨hthrows, hargs⟩ := NatSet.union_subset_iff.mp h
  refine ⟨hargs, fun _ hsignature => ?_⟩
  cases hsignature
  exact hthrows

/-! ### Functions -/

lemma gathers_function (hat : CallForm.function.IsAt s.cursor) :
    Gathers part s (nameUse expr) (nameUse (refusing part expr))
      (CallRaises (CallForm.function.callee? s)) := by
  obtain ⟨hname, hopen⟩ := hat
  refine .advance (.run rfl (.kind (.ite (fun h => ?_) fun _ => .ite (fun h => ?_) fun _ =>
    .ite (fun _ => .run rfl ?_) fun h => ?_)))
  · simp [hopen] at h
  · exact absurd hname (bne_iff_ne.mp h)
  · refine (gathers_arguments _).bind ?_
    rintro args _ _ - rfl
    rw [CallForm.callee?]
    cases s.env.function? s.cursor.current.value with
    | none =>
        refine .step fun _ _ _ => .step fun type _ _ => .pure (callRaises_none ?_)
        rw [List.append_nil]
        exact NatSet.subset_rfl
    | some entry =>
        refine (gathers_checkedCall _ _ _ _).bind ?_
        rintro _ raises _ - ⟨rfl, rfl⟩
        refine .step fun type _ _ => .pure (callRaises_some ?_)
        rw [List.append_nil, List.append_nil]
        exact NatSet.subset_rfl
  · simp [hopen] at h

/-! ### Methods -/

/-- What the call of a method of an object or of a class raises. -/
def MethodCallRaises (form : CallForm) (s : State) (args : List Facts) (r : Facts) (_ : State) :
    Prop :=
  r.raises = methodRaises s.env.classes (form.receiver? s) (form.methodName s) args ∪
    form.receiverRaises

/-- Where the class is not known or has the method, nothing is lost. -/
lemma callRaises_of_methodRaises {t : ClassTable} {owner : Option ClassId} {name : String}
    {args : List Facts} {r : Facts} (hfound : ¬ ∃ id ∈ owner, called? t id name = none)
    (h : methodRaises t owner name args ⊆ r.raises) :
    CallRaises ((owner.bind (called? t · name)).map (·.signature)) args r s := by
  cases owner with
  | none => exact callRaises_none h
  | some id =>
      rw [Option.bind_some]
      cases hcalled : called? t id name with
      | none => exact absurd ⟨id, rfl, hcalled⟩ hfound
      | some method =>
          rw [methodRaises, hcalled] at h
          exact callRaises_some h

/-- Where the class does not have the method, what the arguments raise is lost. -/
lemma MethodCallRaises.eq_receiverRaises {form : CallForm} {args : List Facts} {r : Facts}
    {s' : State} (h : MethodCallRaises form s args r s') (hmissing : form.MissesMethod s) :
    r.raises = form.receiverRaises := by
  obtain ⟨id, hid, hnone⟩ := hmissing
  rw [h, Option.mem_def.mp hid, methodRaises, hnone, NatSet.empty_union]

lemma gathers_method (hexpr : LeavesNames expr) {object : Facts}
    (hat : (CallForm.method object).IsAt s.cursor) :
    Gathers part s (memberAccess expr object) (memberAccess (refusing part expr) object)
      (MethodCallRaises (.method object) s) := by
  obtain ⟨-, hname, hopen⟩ := hat
  refine (gathers_memberAccess object s).mono fun parts r s' h => ?_
  generalize hraises : r.raises = raises at h
  cases h with
  | dynamic hvar => cases hvar.symm.trans hname
  | property _ hproperty => exact absurd hopen hproperty
  | method _ hargs =>
      rw [(hexpr hargs).1] at hraises
      exact hraises

lemma gathers_staticAccess (hexpr : LeavesNames expr) {word : String} {p : Position} {s : State}
    (hname : s.cursor.advance.kind = .name) (hopen : s.cursor.advance.advance.kind = .openParen) :
    Gathers part s (staticAccess expr word p) (staticAccess (refusing part expr) word p)
      fun parts r _ => r.raises = methodRaises s.env.classes (s.classNamed? word)
        s.cursor.advance.current.value parts := by
  refine .step fun _ s₁ hcolons => ?_
  obtain ⟨-, rfl⟩ := require_ok hcolons
  refine .run (classNamed?_run word _) ?_
  extract_lets member member'
  have hmember : ∀ u t, t.cursor = s.cursor.advance → t.env = s.env →
      Gathers part t (member u) (member' u) fun parts r _ =>
        r.raises = methodRaises s.env.classes (s.classNamed? word)
          s.cursor.advance.current.value parts := by
    intro _ t hcursor henv
    refine .advance (.run rfl ?_)
    have htoken : t.cursor.current = s.cursor.advance.current := congrArg Cursor.current hcursor
    have hkind : s.cursor.advance.current.kind = .name := hname
    simp only [htoken, hkind]
    refine .kind (.ite (fun _ => ?_) fun h => ?_)
    · refine gathers_methodCall.bind ?_
      rintro args r _ - ⟨after, hargs, hraises⟩
      refine .pure ?_
      rw [List.append_nil, hraises, (hexpr hargs).1, henv]
      rfl
    · have hafter : t.cursor.advance = s.cursor.advance.advance := congrArg Cursor.advance hcursor
      exact absurd (beq_iff_eq.mpr ((congrArg Cursor.kind hafter).trans hopen)) h
  clear_value member member'
  refine .ite (fun _ => ?_) fun _ => hmember _ _ rfl rfl
  refine .step fun _ _ hreport => ?_
  cases hreport
  exact hmember _ _ rfl rfl

lemma gathers_staticMethod (hexpr : LeavesNames expr) (hat : CallForm.staticMethod.IsAt s.cursor) :
    Gathers part s (nameUse expr) (nameUse (refusing part expr))
      (MethodCallRaises .staticMethod s) := by
  obtain ⟨-, hcolons, hname, hopen⟩ := hat
  refine .advance (.run rfl (.kind (.ite (fun _ => ?_) fun h => ?_)))
  · refine Gathers.mono (gathers_staticAccess hexpr hname hopen) fun parts r s' hraises => ?_
    have hnone : CallForm.staticMethod.receiverRaises = ∅ := rfl
    rw [MethodCallRaises, hnone, NatSet.union_empty]
    exact hraises
  · simp [hcolons] at h

/-! ### Instances -/

lemma gathers_creation (hexpr : LeavesNames expr) (s : State) :
    Gathers part s (instanceCreation expr) (instanceCreation (refusing part expr))
      (CallRaises (CallForm.creation.callee? s)) := by
  refine .advance (.run rfl (.advance ?_))
  extract_lets named named'
  have hnamed : ∀ u, Gathers part { s with cursor := s.cursor.advance.advance } (named u) (named' u)
      (CallRaises (CallForm.creation.callee? s)) := by
    refine fun _ => .run rfl (.kind ?_)
    -- once the arguments are read, no more expressions are
    extract_lets made
    have hmade : ∀ args t, t.env = s.env → t.inClass = s.inClass →
        Gathers part t (made args) (made args) fun parts =>
          CallRaises (CallForm.creation.callee? s) (args ++ parts) := by
      intro args t henv hclass
      have hnames : t.classNamed? = s.classNamed? := by
        funext name
        rw [State.classNamed?, State.classNamed?, henv, hclass]
      refine .run (classNamed?_run _ t) ?_
      rw [hnames, CallForm.callee?]
      cases s.classNamed? s.cursor.advance.current.value with
      | none =>
          refine .step fun _ _ _ => .step fun type _ _ => .pure (callRaises_none ?_)
          rw [List.append_nil]
          exact NatSet.subset_rfl
      | some id =>
          refine .run rfl ?_
          rw [henv, Option.bind_some]
          extract_lets last checked
          have hcall : ∀ signature p t, Gathers part t (checkedCall signature args p >>= last)
              (checkedCall signature args p >>= last) fun parts r _ =>
                NatSet.ofList signature.throws ∪ allRaises (args ++ parts) ⊆ r.raises := by
            refine fun signature p t => (gathers_checkedCall signature args p t).bind ?_
            rintro _ _ _ - ⟨rfl, rfl⟩
            refine .step fun type _ _ => .pure ?_
            rw [List.append_nil, List.append_nil]
            exact NatSet.subset_rfl
          clear_value last
          have hchecked : ∀ u t, Gathers part t (checked u) (checked u) fun parts =>
              CallRaises ((s.env.classes.constructorOf? id).map (·.signature)) (args ++ parts) := by
            intro u t
            simp only [checked]
            cases s.env.classes.constructorOf? id with
            | none =>
                refine (hcall _ _ t).mono fun parts r _ hraises => callRaises_none ?_
                exact (NatSet.union_subset_iff.mp hraises).2
            | some constructor =>
                refine .step fun _ t _ => (hcall _ _ t).mono fun parts r _ hraises => ?_
                exact callRaises_some hraises
          clear_value checked
          cases s.env.classes.get? id with
          | none => exact hchecked () t
          | some decl =>
              refine .ite (fun _ => hchecked () t) fun _ => .step fun _ t' _ => hchecked _ t'
    clear_value made
    refine .ite (fun _ => ?_) fun _ => .run rfl (hmade [] _ rfl rfl)
    refine (gathers_arguments _).bind ?_
    rintro args _ t hargs rfl
    exact hmade _ t (hexpr hargs).1 (hexpr hargs).2
  clear_value named named'
  refine .ite (fun _ => hnamed ()) fun _ => .step fun _ _ hrejected => ?_
  cases hrejected

/-! ### Any call -/

/-- What a call of any form raises. -/
def AnyCallRaises (form : CallForm) (s : State) (args : List Facts) (r : Facts) (s' : State) : Prop :=
  (¬ form.MissesMethod s → CallRaises (form.callee? s) args r s') ∧
    (form.MissesMethod s → r.raises = form.receiverRaises)

lemma gathers_call (hexpr : LeavesNames expr) {form : CallForm} (hat : form.IsAt s.cursor) :
    Gathers part s (form.reader expr) (form.reader (refusing part expr)) (AnyCallRaises form s) := by
  have hplain : form.receiver? s = none → ∀ args r s', CallRaises (form.callee? s) args r s' →
      AnyCallRaises form s args r s' := fun hnone args r s' h =>
    ⟨fun _ => h, fun hmissing => absurd hmissing (CallForm.not_missesMethod hnone)⟩
  have hmethod : form.callee? s = ((form.receiver? s).bind
        (called? s.env.classes · (form.methodName s))).map (·.signature) →
      ∀ args r s', MethodCallRaises form s args r s' → AnyCallRaises form s args r s' := by
    intro hcallee args r s' h
    refine ⟨fun hfound => ?_, h.eq_receiverRaises⟩
    rw [hcallee]
    refine callRaises_of_methodRaises hfound ?_
    rw [h]
    exact NatSet.subset_union_left
  cases form with
  | function => exact (gathers_function hat).mono (hplain rfl)
  | method object => exact (gathers_method hexpr hat).mono (hmethod rfl)
  | staticMethod => exact (gathers_staticMethod hexpr hat).mono (hmethod rfl)
  | creation => exact (gathers_creation hexpr s).mono (hplain rfl)
  | value callee =>
      exact (gathers_valueCall callee s).mono fun args r s' h =>
        hplain rfl args r s' (callRaises_none h.2)

/-- **Calls keep what their arguments raise.** For every form of a call, in every state in which one
stands at the cursor: if the call is read, it raises all that any of its arguments raises, and all
that the callee declares if there is one. The exception is a method that its class, which is known,
does not have: the call then raises what stands before it raises, and no more. -/
theorem call_keeps_raises (depth : Nat) (form : CallForm) {s s' : State} {r : Facts}
    (hat : form.IsAt s.cursor) (hrun : form.reader (exprWithin depth) s = .ok r s') :
    (¬ form.MissesMethod s →
      (∀ part, ReadsPart form.reader (exprWithin depth) s part → part.raises ⊆ r.raises) ∧
        ∀ signature ∈ form.callee? s, NatSet.ofList signature.throws ⊆ r.raises) ∧
      (form.MissesMethod s → r.raises = form.receiverRaises) := by
  have hgathers : ∀ part, Gathers part s (form.reader (exprWithin depth))
      (form.reader (refusing part (exprWithin depth))) (AnyCallRaises form s) :=
    fun part => gathers_call (leavesNames_exprWithin depth) hat
  obtain ⟨args, hcall, -⟩ := hgathers r r s' hrun
  refine ⟨fun hfound => ⟨fun part hpart => ?_, (hcall.1 hfound).2⟩, hcall.2⟩
  obtain ⟨args, hcall, hmem⟩ := hpart.exists_mem (hgathers part) hrun
  exact allRaises_subset_iff.mp (hcall.1 hfound).1 part hmem

/-- A class with one method, which declares an exception. -/
def oneMethod : ClassTable := (({} : ClassTable).add
  { name := "A", isDeclared := true, position := default,
    methods := [{ name := "m", owner := 0, position := default, signature := { throws := [2] } }] }).2

/-- The arrow before a call of the named method, with a call of a function for its argument. -/
def atMethodCall (name : String) : State where
  cursor := { file := "main", tokens := #[⟨.arrow, "->", 0, 2⟩, ⟨.name, name, 2, 3⟩,
    ⟨.openParen, "(", 3, 4⟩, ⟨.name, "g", 4, 5⟩, ⟨.openParen, "(", 5, 6⟩, ⟨.closeParen, ")", 6, 7⟩,
    ⟨.closeParen, ")", 7, 8⟩, .ending 8] }
  env := { raisers with classes := oneMethod }

/-- An object of the class. -/
def instanceOfA : Facts := { type := .ofClass 0 "A", position := default }

/-- The argument of the call. -/
def raisingArgument : Facts :=
  { type := .null, raises := NatSet.ofList [1], position := ⟨4, "main"⟩ }

theorem call_keeps_raises_method :
    ∃ r s', memberAccess (exprWithin 9) instanceOfA (atMethodCall "m") = .ok r s' ∧
      raisingArgument.raises ⊆ r.raises ∧ 2 ∈ r.raises := by
  have hat : (CallForm.method instanceOfA).IsAt (atMethodCall "m").cursor := by
    refine ⟨?_, ?_, ?_⟩ <;> decide
  obtain ⟨s', hrun⟩ := exists_of_run' (m := memberAccess (exprWithin 9) instanceOfA)
    (s := atMethodCall "m")
    (a := { type := .null, raises := NatSet.ofList [1, 2], position := default })
    (by decide +kernel)
  have hfound : ¬ (CallForm.method instanceOfA).MissesMethod (atMethodCall "m") := by
    rintro ⟨id, hid, hnone⟩
    cases hid
    exact absurd hnone (by decide +kernel)
  have hpart : ReadsPart (CallForm.method instanceOfA).reader (exprWithin 9) (atMethodCall "m")
      raisingArgument := exists_error_of_run' (by decide +kernel)
  obtain ⟨hargs, hcallee⟩ := (call_keeps_raises 9 (.method instanceOfA) hat hrun).1 hfound
  refine ⟨_, s', hrun, hargs _ hpart, hcallee { throws := [2] } (by decide +kernel) 2 (by decide)⟩

/-- What the argument raises is lost where the class does not have the method. -/
theorem unknown_method_drops_raises :
    ∃ r s', memberAccess (exprWithin 9) instanceOfA (atMethodCall "n") = .ok r s' ∧
      ReadsPart (memberAccess · instanceOfA) (exprWithin 9) (atMethodCall "n") raisingArgument ∧
      1 ∈ raisingArgument.raises ∧ 1 ∉ r.raises := by
  obtain ⟨s', hrun⟩ := exists_of_run' (m := memberAccess (exprWithin 9) instanceOfA)
    (s := atMethodCall "n") (a := { type := .mixed, position := default }) (by decide +kernel)
  exact ⟨_, s', hrun, exists_error_of_run' (by decide +kernel), by decide, by decide⟩

end ScriptCheck.Check
