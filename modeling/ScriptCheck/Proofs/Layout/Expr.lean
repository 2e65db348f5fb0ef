import ScriptCheck.Proofs.Layout.Steps

/-!
The reader of expressions agrees on relocated tokens.

Each reader of an operand or operator does, if the reader of expressions that it takes does; by
induction over the depth so does the reader of expressions itself (`agree_expr`). Where a member is
looked up, the law of the relocation is told how the member is used.
-/

namespace ScriptCheck

/-- A reader of expressions agrees, whatever the power. -/
abbrev Relocation.Law.AgreeExpr {r : Relocation} (K : r.Law) (least : Nat) (expr : ExprReader) :
    Prop :=
  ∀ power, K.Alike least (Maps r.facts) (expr power)

namespace Check

open Relocation.Law (Agree AgreeIf)

variable {r : Relocation} {K : r.Law} {least : Nat} {expr : ExprReader}

/-! ### Checks and types of parts -/

lemma agree_unify (a b : Ty) : K.Alike least Eq (unify a b) :=
  .ite (fun _ => .pure rfl) fun _ => .ite (fun _ => .pure rfl) fun _ =>
    .ite (fun _ => .pure rfl) fun _ => agree_mixed

lemma agree_callType (signature : Signature) : K.Alike least Eq (callType signature) := by
  rw [callType]
  split
  · exact .pure rfl
  · exact agree_typeOf _

lemma agree_checkArguments (signature : Signature) (index : Nat) (args : List Facts) :
    K.Agree least Eq (checkArguments signature index args)
      (checkArguments signature index (args.map r.facts)) := by
  induction args generalizing index with
  | nil => exact .pure rfl
  | cons arg args ih =>
      rw [List.map_cons, checkArguments, checkArguments]
      cases signature.parameterAt index with
      | none => exact ih _
      | some param =>
          refine (agree_accepts _ _).bind_eq fun accepted => .ite (fun _ => ih _) fun _ => ?_
          exact .report rfl fun _ => ih _

lemma agree_checkedCall (signature : Signature) (args : List Facts) (p : Position) :
    K.Agree least Eq (checkedCall signature args p)
      (checkedCall signature (args.map r.facts) (r.position p)) := by
  have hlast : K.Agree least Eq
      (do
        checkArguments signature 0 args
        pure (NatSet.ofList signature.throws ∪ allRaises args))
      (do
        checkArguments signature 0 (args.map r.facts)
        pure (NatSet.ofList signature.throws ∪ allRaises args)) :=
    (agree_checkArguments signature 0 args).bind_eq fun _ => .pure rfl
  simp only [checkedCall, List.length_map, r.allRaises_map]
  refine .ite (fun _ => .report rfl fun _ => ?_) fun _ => ?_
  all_goals
    split
    · exact .ite (fun _ => .report rfl fun _ => hlast) fun _ => hlast
    · exact hlast

lemma agree_checkAccess (m : Member) (p : Position) {q : Position} :
    K.Agree least Eq (checkAccess m p) (checkAccess { m with position := q } (r.position p)) := by
  refine .look fun s hs => ?_
  have hclasses : (r.state s).env.classes = s.env.classes.relocate r.origin := rfl
  have hclass : (r.state s).inClass = s.inClass := rfl
  simp only [hclasses, hclass, ClassTable.isSubclass_relocate, ClassTable.nameOf_relocate]
  exact .ite (fun _ => .pure rfl) fun _ => agree_report rfl p

lemma agreeIf_reportUnknownMember {isMissing : ClassTable → ClassId → Prop} {shown : String}
    {p : Position} (huse : MemberUse r.file r.tokens isMissing shown p) (id : ClassId) :
    K.AgreeIf least (fun s => isMissing s.env.classes id) Eq (reportUnknownMember id shown p)
      (reportUnknownMember id shown (r.position p)) := by
  intro s hs hmissing
  have hname : (r.state s).env.classes.nameOf id = s.env.classes.nameOf id :=
    s.env.classes.nameOf_relocate r.origin id
  have hlog := r.addFault_log s.log ⟨.unknownMember (s.env.classes.nameOf id) shown, p⟩
  show K.Results least Eq
    (.ok () { s with
      log := s.log.addFault ⟨.unknownMember (s.env.classes.nameOf id) shown, p⟩ })
    (.ok () { r.state s with
      log := (r.log s.log).addFault
        ⟨.unknownMember ((r.state s).env.classes.nameOf id) shown, r.position p⟩ })
  rw [hname]
  exact hlog ▸ .ok rfl { hs with holds := K.unknownMember id hs.holds huse hmissing }

lemma agree_reportUnknownMember {shown : String} {p : Position}
    (huse : MemberUse r.file r.tokens (fun _ _ => True) shown p) (id : ClassId) :
    K.Agree least Eq (reportUnknownMember id shown p)
      (reportUnknownMember id shown (r.position p)) :=
  fun s hs => agreeIf_reportUnknownMember huse id s hs trivial

lemma agree_propertyType {name shown : String} {p : Position}
    (huse : MemberUse r.file r.tokens (fun _ _ => True) shown p) (owner : Option ClassId) :
    K.Agree least Eq (propertyType owner name shown p)
      (propertyType owner name shown (r.position p)) := by
  cases owner with
  | none => exact agree_mixed
  | some id =>
      refine agree_classes.bind_maps fun t => ?_
      rw [ClassTable.property?_relocate]
      cases t.property? id name with
      | none => exact (agree_reportUnknownMember huse id).bind_eq fun _ => agree_mixed
      | some property =>
          exact (agree_checkAccess property.toMember p).bind_eq fun _ => .pure rfl

lemma agreeIf_constantType {isMissing : ClassTable → ClassId → Prop} {name : String} {p : Position}
    {owner : Option ClassId} (huse : MemberUse r.file r.tokens isMissing name p) :
    K.AgreeIf least
      (fun s => ∀ id, owner = some id → s.env.classes.constant? id name = none →
        isMissing s.env.classes id)
      Eq (constantType owner name p) (constantType owner name (r.position p)) := by
  cases owner with
  | none => exact agree_mixed.agreeIf
  | some id =>
      refine AgreeIf.bind
        (Q := fun t s => t.constant? id name = none → isMissing s.env.classes id)
        agree_classes.agreeIf (fun s t s' hs hmissing hok => ?_) fun t _ h => ?_
      · cases hok
        exact hmissing id rfl
      · rw [h, ClassTable.constant?_relocate]
        cases t.constant? id name with
        | some constant =>
            exact ((agree_checkAccess constant.toMember p).bind_eq fun _ => .pure rfl).agreeIf
        | none =>
            refine AgreeIf.bind (Q := fun _ _ => True)
              (fun s hs h => agreeIf_reportUnknownMember huse id s hs (h rfl))
              (fun _ _ _ _ _ _ => trivial) fun _ _ _ => agree_mixed.agreeIf

lemma quiet_report {cause : Cause} {p : Position} {s s' : State} {u : Unit}
    (h : report cause p s = .ok u s') : s'.cursor = s.cursor ∧ s'.env = s.env := by
  cases h
  exact ⟨rfl, rfl⟩

lemma quiet_positionOf {token : Token} {p : Position} {s s' : State}
    (h : positionOf token s = .ok p s') : s'.cursor = s.cursor ∧ s'.env = s.env := by
  cases h
  exact ⟨rfl, rfl⟩

lemma agree_objectClass (object : Facts) :
    K.Agree least Eq (objectClass object) (objectClass (r.facts object)) := by
  have htype : (r.facts object).type = object.type := rfl
  rw [objectClass, objectClass, htype]
  split
  · exact .pure rfl
  · exact .pure rfl
  · exact .pure rfl
  · exact .report rfl fun _ => .pure rfl

lemma quiet_objectClass {object : Facts} {owner : Option ClassId} {s s' : State}
    (h : objectClass object s = .ok owner s') : s'.cursor = s.cursor ∧ s'.env = s.env := by
  rw [objectClass] at h
  generalize object.type = type at h
  cases type <;> cases h <;> exact ⟨rfl, rfl⟩

lemma agree_thisClass? : K.Alike least Eq thisClass? := by
  refine .look fun s hs => ?_
  have hroutine : (r.state s).routine = s.routine := rfl
  rw [hroutine]
  split
  · exact .pure rfl
  · exact .pure rfl

lemma agree_targetType? (target : Place) (assigned : Ty) :
    K.Alike least Eq (targetType? target assigned) := by
  cases target with
  | typed type => exact .pure rfl
  | var name =>
      refine (agree_variableNamed? name).bind_eq fun found => ?_
      cases found with
      | some v => exact .pure rfl
      | none =>
          have hdeclare : ∀ type, K.Alike least (@Eq (Option Ty))
              (do setVariable name type false; return none) :=
            fun type => agree_setVariable.bind_eq fun _ => .pure rfl
          exact .ite (fun _ => .mixed hdeclare) fun _ => hdeclare assigned

lemma agree_arithmeticType {operator : Kind} {left right : Ty} :
    K.Alike least Eq (arithmeticType operator left right) := by
  unfold arithmeticType
  split
  case h_4 =>
    exact .ite (fun _ => agree_typeOf _) fun _ => .ite (fun _ => agree_typeOf _) fun _ => agree_mixed
  all_goals exact agree_typeOf _

lemma agree_elementType (left : Ty) (key : Option Facts) :
    K.Agree least Eq (elementType left key) (elementType left (key.map r.facts)) := by
  unfold elementType
  split
  case h_1 =>
    cases key with
    | none => exact .pure rfl
    | some key =>
        refine .ite (fun _ => ?_) fun _ => .pure rfl
        exact (agree_report rfl key.position).bind_eq fun _ => .pure rfl
  case h_2 => exact .pure rfl
  case h_3 => exact agree_mixed

/-! ### Calls and members -/

section Parts

variable (hexpr : K.AgreeExpr least expr)
include hexpr

lemma agree_argumentsFrom (fuel : Nat) (args : List Facts) :
    K.Agree least (Maps (List.map r.facts)) (argumentsFrom expr fuel args)
      (argumentsFrom expr fuel (args.map r.facts)) := by
  induction fuel generalizing args with
  | zero => exact agree_spent
  | succ fuel ih =>
      rw [argumentsFrom, argumentsFrom]
      simp only [List.isEmpty_map]
      refine .onKind fun here => .ite (fun _ => .pure rfl) fun _ => ?_
      refine .ite (fun _ => .advance fun _ _ => ih args) fun _ => ?_
      refine (hexpr _).bind_maps fun arg => .onKind fun next => ?_
      refine .ite (fun _ => ?_) fun _ => agree_reject
      simpa using ih (args ++ [arg])

lemma agree_arguments : K.Alike least (Maps (List.map r.facts)) (arguments expr) := by
  refine .require fun _ _ => .bound fun n => ?_
  refine (agree_argumentsFrom hexpr n []).bind_maps fun args => ?_
  exact .require fun _ _ => .pure rfl

lemma agree_methodCall
    {name : String} {p : Position} (huse : MemberUse r.file r.tokens (fun _ _ => True) name p)
    (owner : Option ClassId) :
    K.Agree least (Maps r.facts) (methodCall expr owner name p)
      (methodCall expr owner name (r.position p)) := by
  refine (agree_arguments hexpr).bind_maps fun args => ?_
  rw [r.allRaises_map]
  cases owner with
  | none => exact .mixed fun type => .pure rfl
  | some id =>
      refine agree_classes.bind_maps fun t => ?_
      extract_lets found found'
      have hfound : found' = found.map (.relocate r.origin) := by
        simp only [found, found', ClassTable.constructorOf?_relocate, ClassTable.method?_relocate]
        split <;> rfl
      rw [hfound]
      cases found with
      | none =>
          refine (agree_reportUnknownMember huse id).bind_eq fun _ => ?_
          exact .mixed fun type => .pure rfl
      | some method =>
          refine (agree_checkAccess method.toMember p).bind_eq fun _ => ?_
          refine (agree_checkedCall method.signature args p).bind_eq fun raises => ?_
          exact (agree_callType method.signature).bind_eq fun type => .pure rfl

/-- What follows the `::` after a word. -/
lemma agreeIf_staticAccess {i : Nat} {t : ClassTable}
    {word : Token} (hword : r.tokens[i]? = some word) (p : Position) :
    K.AgreeIf least (IsAt (i + 1) t) (Maps r.facts) (staticAccess expr word.value p)
      (staticAccess expr word.value (r.position p)) := by
  refine agreeIf_bind_require (by simp) fun _ hcolon => ?_
  refine agreeIf_bind_classNamed? fun owner howner => ?_
  extract_lets member member'
  have hmember : ∀ u, K.AgreeIf least (IsAt (i + 2) t) (Maps r.facts) (member u) (member' u) := by
    refine fun _ => agreeIf_bind_advance fun token j htoken hj => ?_
    refine agreeIf_bind_quiet (agree_positionOf token) (fun _ _ _ => quiet_positionOf) ?_
    rintro _ _ ⟨rfl, rfl⟩
    rw [r.token_kind, r.token_value]
    split
    case h_1 =>
      refine Agree.agreeIf ?_
      exact (agree_typeOf _).bind_eq fun type => .pure rfl
    case h_2 hkind =>
      rw [if_neg (by simp [hkind])] at hj
      subst hj
      refine agreeIf_bind_kind fun next hnext => .ite (fun hparen => ?_) fun hparen => ?_
      · refine Agree.agreeIf ?_
        have huse : MemberUse r.file r.tokens (fun _ _ => True) token.value ⟨token.start, r.file⟩ :=
          .method (i + 2) token htoken (by rw [hnext, beq_iff_eq.mp hparen])
        exact (agree_methodCall hexpr huse owner).bind_maps fun result => .pure rfl
      · have huse : MemberUse r.file r.tokens _ token.value ⟨token.start, r.file⟩ :=
          .constant i word token hword hcolon htoken hkind (by simpa [hnext] using hparen)
        refine AgreeIf.bind (Q := fun _ _ => True)
          (fun s hs hat => agreeIf_constantType huse s hs fun id hid hnone => ?_)
          (fun _ _ _ _ _ _ => trivial) fun type _ h => h ▸ Agree.agreeIf (.pure rfl)
        exact ⟨hat.2 ▸ howner id hid, hnone⟩
    case h_3 hkind =>
      refine Agree.agreeIf ?_
      have huse : MemberUse r.file r.tokens (fun _ _ => True) ("$" ++ token.value)
          ⟨token.start, r.file⟩ := .property (i + 1) token _ htoken (.inl hkind)
      exact (agree_propertyType huse owner).bind_eq fun type => .pure rfl
    case h_4 => exact (agree_rejectToken token).agreeIf
  refine .ite (fun _ => ?_) fun _ => hmember ()
  exact agreeIf_bind_quiet (agree_report rfl p) (fun _ _ _ => quiet_report)
    fun u _ _ => hmember u

lemma agree_memberAccess
    (object : Facts) : K.Agree least (Maps r.facts) (memberAccess expr object)
      (memberAccess expr (r.facts object)) := by
  refine agree_of_isAt fun i t => agreeIf_bind_require (by simp) fun _ harrow => ?_
  refine agreeIf_bind_quiet (agree_objectClass object) (fun _ _ _ => quiet_objectClass) ?_
  rintro owner _ rfl
  refine agreeIf_bind_advance fun token j htoken hj => ?_
  refine agreeIf_bind_quiet (agree_positionOf token) (fun _ _ _ => quiet_positionOf) ?_
  rintro _ _ ⟨rfl, rfl⟩
  rw [r.token_kind, r.token_value]
  split
  case h_1 hkind =>
    rw [if_neg (by simp [hkind])] at hj
    subst hj
    refine agreeIf_bind_kind fun next hnext => .ite (fun hparen => ?_) fun hparen => ?_
    · refine Agree.agreeIf ?_
      have huse : MemberUse r.file r.tokens (fun _ _ => True) token.value ⟨token.start, r.file⟩ :=
        .method (i + 1) token htoken (by rw [hnext, beq_iff_eq.mp hparen])
      exact (agree_methodCall hexpr huse owner).bind_maps fun result => .pure rfl
    · refine Agree.agreeIf ?_
      have huse : MemberUse r.file r.tokens (fun _ _ => True) token.value ⟨token.start, r.file⟩ :=
        .property i token _ htoken (.inr harrow)
      exact (agree_propertyType huse owner).bind_eq fun type => .pure rfl
  case h_2 =>
    refine Agree.agreeIf ?_
    exact .mixed fun type => .pure rfl
  case h_3 => exact (agree_rejectToken token).agreeIf

/-! ### Operands -/

omit hexpr in
lemma agree_literal : K.Alike least (Maps r.facts) literal := by
  refine .advance fun token _ => .positionOf fun p _ => ?_
  rw [r.token_kind, r.token_value]
  split
  case h_6 => exact agree_rejectToken token
  all_goals exact (agree_typeOf _).bind_eq fun type => .pure rfl

omit hexpr in
lemma agree_variableUse : K.Alike least (Maps r.facts) variableUse := by
  refine .advance fun token _ => .positionOf fun p _ => ?_
  rw [r.token_value]
  refine .ite (fun _ => ?_) fun _ => ?_
  · refine agree_thisClass?.bind_eq fun owner => ?_
    cases owner with
    | some id => exact (agree_instanceType id).bind_eq fun type => .pure rfl
    | none =>
        refine .report rfl fun _ => ?_
        exact .mixed fun type => .pure rfl
  · refine (agree_variableNamed? _).bind_eq fun found => ?_
    cases found with
    | some v => exact .pure rfl
    | none =>
        refine .onKind fun next => ?_
        extract_lets rest rest'
        have hrest : ∀ u, K.Agree least (Maps r.facts) (rest u) (rest' u) :=
          fun _ => .mixed fun type => .pure rfl
        exact .ite (fun _ => hrest ()) fun _ => .report rfl hrest

lemma agree_nameUse : K.Alike least (Maps r.facts) (nameUse expr) := by
  refine agree_of_isAt fun i t => agreeIf_bind_advance fun token j htoken hj => ?_
  refine agreeIf_bind_quiet (agree_positionOf token) (fun _ _ _ => quiet_positionOf) ?_
  rintro p _ ⟨-, rfl⟩
  rw [r.token_kind, r.token_value]
  refine agreeIf_bind_kind fun next hnext => .ite (fun hcolon => ?_) fun _ => Agree.agreeIf ?_
  · split at hj
    case isTrue heof =>
      -- the cursor stays on the end token
      rw [hj, kindAt?, htoken, Option.map_some, heof] at hnext
      cases hnext
      cases hcolon
    case isFalse => exact hj ▸ agreeIf_staticAccess hexpr htoken p
  · refine .ite (fun _ => agree_rejectToken token) fun _ => .ite (fun _ => ?_) fun _ => ?_
    · refine .look fun s hs => (agree_arguments hexpr).bind_maps fun args => ?_
      have henv : (r.state s).env = r.env s.env := rfl
      rw [henv, r.function?_env, r.allRaises_map]
      cases s.env.function? token.value with
      | some entry =>
          refine (agree_checkedCall entry.signature args p).bind_eq fun raises => ?_
          exact (agree_callType entry.signature).bind_eq fun type => .pure rfl
      | none =>
          refine .report rfl fun _ => ?_
          exact .mixed fun type => .pure rfl
    · refine .look fun s hs => ?_
      have henv : (r.state s).env.constant? token.value = s.env.constant? token.value := rfl
      rw [henv]
      cases s.env.constant? token.value with
      | some type => exact .pure rfl
      | none => exact .mixed fun type => .pure rfl

lemma agree_signed : K.Alike least (Maps r.facts) (signed expr) := by
  refine .advance fun token _ => .positionOf fun p _ => ?_
  refine (hexpr _).bind_maps fun right => .ite (fun _ => ?_) fun _ => .ite (fun _ => ?_) fun _ => ?_
  · exact (agree_typeOf _).bind_eq fun type => .pure rfl
  · exact agree_rejectToken token
  · exact .ite (fun _ => .pure rfl) fun _ => .mixed fun type => .pure rfl

omit hexpr in
lemma agree_castAhead? : K.Alike least Eq castAhead? := by
  refine .current fun token _ => (agree_kindAhead 1).bind_eq fun next => ?_
  exact .ite (fun _ => .pure rfl) fun _ => .pure rfl

lemma agree_grouped : K.Alike least (Maps r.facts) (grouped expr) := by
  refine .advance fun token _ => .positionOf fun p _ => ?_
  refine agree_castAhead?.bind_eq fun cast => ?_
  cases cast with
  | some descriptor =>
      refine .advance fun _ _ => .advance fun _ _ => ?_
      refine (hexpr _).bind_maps fun operand => ?_
      exact (agree_typeOf _).bind_eq fun type => .pure rfl
  | none =>
      refine (hexpr _).bind_maps fun inner => ?_
      exact .require fun _ _ => .pure rfl

lemma agree_arrayItem : K.Alike least Eq (arrayItem expr) := by
  refine (hexpr _).bind_maps fun first => .takes fun keyed => ?_
  exact .ite (fun _ => (hexpr _).bind_maps fun value => .pure rfl) fun _ => .pure rfl

lemma agree_arrayItems {close : Kind} (fuel : Nat) (items : List ArrayItem) :
    K.Alike least Eq (arrayItems expr close fuel items) := by
  induction fuel generalizing items with
  | zero => exact agree_spent
  | succ fuel ih =>
      refine .onKind fun here => .ite (fun _ => .pure rfl) fun _ => ?_
      refine (agree_arrayItem hexpr).bind_eq fun item => .takes fun more => ?_
      refine .ite (fun _ => ih _) fun _ => .onKind fun next => ?_
      exact .ite (fun _ => .pure rfl) fun _ => agree_reject

lemma agree_arrayLiteral : K.Alike least (Maps r.facts) (arrayLiteral expr) := by
  refine .advance fun token _ => .positionOf fun p _ => ?_
  extract_lets isWord close rest isWord' close' rest'
  have hrest : ∀ u, K.Agree least (Maps r.facts) (rest u) (rest' u) := by
    intro u
    refine .bound fun n => (agree_arrayItems hexpr n []).bind_eq fun items => ?_
    refine .require fun _ _ => ?_
    exact (agree_typeOf _).bind_eq fun type => .pure rfl
  exact .ite (fun _ => .require fun _ _ => hrest ()) fun _ => hrest ()

lemma agree_instanceCreation : K.Alike least (Maps r.facts) (instanceCreation expr) := by
  refine .advance fun opening _ => ?_
  refine .positionOf fun start _ => ?_
  refine .advance fun token _ => ?_
  extract_lets named named'
  have hnamed : ∀ u, K.Agree least (Maps r.facts) (named u) (named' u) := by
    refine fun _ => .positionOf fun p _ => ?_
    refine .onKind fun next => ?_
    extract_lets made made'
    have hmade : ∀ args, K.Agree least (Maps r.facts) (made args) (made' (args.map r.facts)) := by
      intro args
      refine agree_classNamed?.bind_eq fun owner => ?_
      cases owner with
      | none =>
          rw [r.allRaises_map]
          refine .report rfl fun _ => ?_
          exact .mixed fun type => .pure rfl
      | some id =>
          refine agree_classes.bind_maps fun t => ?_
          rw [ClassTable.constructorOf?_relocate, ClassTable.get?_relocate]
          extract_lets last checked last' checked'
          have hlast : ∀ raises, K.Agree least (Maps r.facts) (last raises) (last' raises) :=
            fun _ => (agree_instanceType id).bind_eq fun type => .pure rfl
          have hchecked : ∀ u, K.Agree least (Maps r.facts) (checked u) (checked' u) := by
            intro u
            simp only [checked, checked']
            cases t.constructorOf? id with
            | none => exact (agree_checkedCall _ args p).bind_eq hlast
            | some constructor =>
                refine (agree_checkAccess constructor.toMember p).bind_eq fun _ => ?_
                exact (agree_checkedCall _ args p).bind_eq hlast
          cases t.get? id with
          | none => exact hchecked ()
          | some decl =>
              refine .ite (fun _ => hchecked ()) fun _ => ?_
              exact .report rfl hchecked
    exact .ite (fun _ => (agree_arguments hexpr).bind_maps hmade) fun _ => hmade []
  refine .ite (fun _ => hnamed ()) fun _ => ?_
  exact (agree_rejectToken token).bind_eq hnamed

lemma agree_operand : K.Alike least (Maps r.facts) (operand expr) := by
  refine .onKind fun here => ?_
  split
  case h_6 => exact agree_variableUse
  case h_7 | h_8 => exact agree_nameUse hexpr
  case h_9 | h_10 | h_11 | h_12 | h_13 => exact agree_signed hexpr
  case h_14 => exact agree_grouped hexpr
  case h_15 | h_16 => exact agree_arrayLiteral hexpr
  case h_17 => exact agree_instanceCreation hexpr
  case h_18 => exact agree_reject
  all_goals exact agree_literal

/-! ### Operators -/

lemma agree_assignment (left : Facts) :
    K.Agree least (Maps r.facts) (assignment expr left) (assignment expr (r.facts left)) := by
  refine .advance fun operator _ => (hexpr _).bind_maps fun right => ?_
  have htarget : (r.facts left).target = left.target := rfl
  rw [htarget]
  cases left.target with
  | none => exact .positionOf fun p _ => agree_fail rfl p
  | some target =>
      refine (agree_targetType? target right.type).bind_eq fun expected => ?_
      cases expected with
      | none => exact .pure rfl
      | some expected =>
          refine .ite (fun _ => ?_) fun _ => .pure rfl
          exact (agree_checkType expected right.type left.position).bind_eq fun _ => .pure rfl

lemma agree_firstBranch
    (condition : Facts) : K.Agree least (Maps r.facts) (firstBranch expr condition)
      (firstBranch expr (r.facts condition)) := by
  refine .takes fun short => .ite (fun _ => .pure rfl) fun _ => ?_
  exact (hexpr _).bind_maps fun branch => .require fun _ _ => .pure rfl

lemma agree_conditional
    (condition : Facts) : K.Agree least (Maps r.facts) (conditional expr condition)
      (conditional expr (r.facts condition)) := by
  refine .require fun _ _ => ?_
  refine (agree_firstBranch hexpr condition).bind_maps fun yes => (hexpr _).bind_maps fun no => ?_
  have htruth : (r.facts condition).truth = condition.truth := rfl
  rw [htruth]
  split
  · exact .pure rfl
  · exact .pure rfl
  · exact (agree_unify yes.type no.type).bind_eq fun type => .pure rfl

lemma agree_logical (power : Power) (left : Facts) :
    K.Agree least (Maps r.facts) (logical expr power left) (logical expr power (r.facts left)) := by
  refine .advance fun operator _ => (hexpr _).bind_maps fun right => ?_
  exact (agree_typeOf _).bind_eq fun type => .pure rfl

lemma agree_comparison
    (power : Power) (left : Facts) : K.Agree least (Maps r.facts) (comparison expr power left)
      (comparison expr power (r.facts left)) := by
  refine .advance fun _ _ => (hexpr _).bind_maps fun right => ?_
  exact (agree_typeOf _).bind_eq fun type => .pure rfl

lemma agree_arithmetic
    (power : Power) (left : Facts) : K.Agree least (Maps r.facts) (arithmetic expr power left)
      (arithmetic expr power (r.facts left)) := by
  refine .advance fun operator _ => (hexpr _).bind_maps fun right => ?_
  exact agree_arithmeticType.bind_eq fun type => .pure rfl

omit hexpr in
lemma agree_step (left : Facts) :
    K.Agree least (Maps r.facts) (step left) (step (r.facts left)) :=
  .advance fun operator _ =>
    .ite (fun _ => agree_rejectToken operator) fun _ => .pure rfl

lemma agree_testedClass : K.Alike least Eq (testedClass expr) := by
  have hnamed : K.Alike least (@Eq NatSet)
      (do
        let token ← advance
        if (← classNamed? token.value).isNone then
          report (.unknownClass token.value) (← positionOf token)
        return ∅) := by
    refine .advance fun token _ => agree_classNamed?.bind_eq fun found => ?_
    refine .ite (fun _ => ?_) fun _ => .pure rfl
    refine .positionOf fun p _ => ?_
    exact .report rfl fun _ => .pure rfl
  refine .onKind fun here => ?_
  split
  · exact hnamed
  · exact hnamed
  · exact (hexpr _).bind_maps fun object => .pure rfl

lemma agree_instanceTest (left : Facts) :
    K.Agree least (Maps r.facts) (instanceTest expr left) (instanceTest expr (r.facts left)) := by
  refine .advance fun _ _ => (agree_testedClass hexpr).bind_eq fun raises => ?_
  exact (agree_typeOf _).bind_eq fun type => .pure rfl

lemma agree_valueCall (left : Facts) :
    K.Agree least (Maps r.facts) (valueCall expr left) (valueCall expr (r.facts left)) := by
  refine (agree_arguments hexpr).bind_maps fun args => ?_
  rw [r.allRaises_map]
  exact .mixed fun type => .pure rfl

lemma agree_indexKey? : K.Alike least (Maps (Option.map r.facts)) (indexKey? expr) := by
  refine .onKind fun here => .ite (fun _ => .pure rfl) fun _ => ?_
  exact (hexpr _).bind_maps fun key => .pure rfl

lemma agree_indexed (left : Facts) :
    K.Agree least (Maps r.facts) (indexed expr left) (indexed expr (r.facts left)) := by
  refine .require fun _ _ => (agree_indexKey? hexpr).bind_maps fun key => ?_
  have hraises : allRaises (key.map r.facts).toList = allRaises key.toList := by
    cases key <;> rfl
  rw [hraises]
  refine .require fun _ _ => ?_
  exact (agree_elementType left.type key).bind_eq fun element => .pure rfl

lemma agree_operator
    (power : Power) (left : Facts) : K.Agree least (Maps r.facts) (operator expr power left)
      (operator expr power (r.facts left)) := by
  refine .onKind fun here => ?_
  split
  case h_1 | h_2 | h_3 | h_4 | h_5 | h_6 => exact agree_assignment hexpr left
  case h_7 => exact agree_conditional hexpr left
  case h_8 | h_9 => exact agree_logical hexpr power left
  case h_18 | h_19 | h_20 | h_21 | h_22 | h_23 => exact agree_arithmetic hexpr power left
  case h_24 => exact agree_instanceTest hexpr left
  case h_25 | h_26 => exact agree_step left
  case h_27 => exact agree_valueCall hexpr left
  case h_28 => exact agree_indexed hexpr left
  case h_29 => exact agree_memberAccess hexpr left
  case h_30 => exact agree_reject
  all_goals exact agree_comparison hexpr power left

/-! ### Expressions -/

lemma agree_operators
    (power : Power) (fuel : Nat) (left : Facts) :
    K.Agree least (Maps r.facts) (operators expr power fuel left)
      (operators expr power fuel (r.facts left)) := by
  induction fuel generalizing left with
  | zero => exact agree_spent
  | succ fuel ih =>
      refine .onKind fun here => ?_
      cases here.power? with
      | none => exact .pure rfl
      | some tighter =>
          refine .ite (fun _ => .pure rfl) fun _ => ?_
          exact (agree_operator hexpr tighter left).bind_maps fun result => ih result

end Parts

lemma agree_exprWithin (fuel : Nat) (power : Power) :
    K.Alike least (Maps r.facts) (exprWithin fuel power) := by
  induction fuel generalizing power with
  | zero => exact agree_spent
  | succ fuel ih =>
      refine (agree_operand ih).bind_maps fun left => .bound fun n => ?_
      exact agree_operators ih power n left

lemma agree_expr {power : Power} : K.Alike least (Maps r.facts) (Check.expr power) :=
  .bound fun n => agree_exprWithin n power

end Check

end ScriptCheck
