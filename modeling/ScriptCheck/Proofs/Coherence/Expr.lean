import ScriptCheck.Proofs.Coherence.State

/-!
Expressions keep states coherent.

An expression enters no class, and what is known of it mentions only classes of the table: its type
and the exceptions it may raise (`Facts.Within`). Every
reader of a part is shown to keep states coherent on the assumption that the reader of expressions
does, and then the reader of expressions by induction on its bound (`Check.keepsAt_expr`).
-/

namespace ScriptCheck

/-- The classes in what is known of an expression are among the first so many. -/
structure Facts.Within (n : Nat) (facts : Facts) : Prop where
  type : facts.type.Within n
  raises : facts.raises.Within n

variable {n : Nat}

lemma within_allRaises {exprs : List Facts} (h : ∀ e ∈ exprs, e.Within n) :
    (allRaises exprs).Within n := by
  induction exprs with
  | nil => exact .empty
  | cons e exprs ih =>
      obtain ⟨he, hexprs⟩ := List.forall_mem_cons.mp h
      exact he.raises.union (ih hexprs)

namespace Check

/-! ### Types of parts -/

lemma keepsAt_unify {a b : Ty} (ha : a.Within n) (hb : b.Within n) :
    KeepsAt n (Ty.Within n) (unify a b) := by
  rw [unify]
  split
  · exact .pure ⟨rfl, ha⟩
  · split
    · exact .pure ⟨rfl, hb⟩
    · split
      · exact .pure ⟨rfl, ha⟩
      · exact keepsAt_mixed

lemma keepsAt_callType {signature : Signature} (h : signature.Within n) :
    KeepsAt n (Ty.Within n) (callType signature) := by
  rw [callType]
  split
  case h_1 type htype => exact .pure ⟨rfl, h.result type htype⟩
  case h_2 => exact keepsAt_typeOf

/-! ### Calls and members -/

@[grind ←]
lemma spares_checkArguments {signature : Signature} (index : Nat) {args : List Facts} :
    Spares (checkArguments signature index args) := by
  induction args generalizing index with
  | nil => exact .pure
  | cons arg args ih =>
      rw [checkArguments]
      cases signature.parameterAt index with
      | none => exact ih _
      | some param =>
          refine (peeks_accepts _ _).spares.bind fun fits => ?_
          split
          · exact ih _
          · exact spares_report.bind fun _ => ih _

@[grind ←]
lemma spares_checkAccess {m : Member} {p : Position} : Spares (checkAccess m p) := by
  rw [checkAccess]
  grind

@[grind ←]
lemma spares_reportUnknownMember {id : ClassId} {member : String} {p : Position} :
    Spares (reportUnknownMember id member p) := by
  rw [reportUnknownMember]
  grind

lemma keepsAt_checkedCall {signature : Signature} {args : List Facts}
    (hsignature : signature.Within n) (hargs : ∀ a ∈ args, a.Within n) (p : Position) :
    KeepsAt n (NatSet.Within n) (checkedCall signature args p) := by
  have hlast : KeepsAt n (NatSet.Within n) (do
      checkArguments signature 0 args
      pure (NatSet.ofList signature.throws ∪ allRaises args)) :=
    .after (spares_checkArguments _) fun _ =>
      .pure ⟨rfl, .union (.ofList hsignature.throws) (within_allRaises hargs)⟩
  rw [checkedCall]
  refine .when spares_report fun _ => ?_
  split
  · exact .when spares_report fun _ => hlast
  · exact hlast

lemma keepsAt_propertyType (owner : Option ClassId) {name shown : String} {p : Position} :
    KeepsAt n (Ty.Within n) (propertyType owner name shown p) := by
  cases owner with
  | none => exact keepsAt_mixed
  | some id =>
      refine .classes fun t ht hsize => ?_
      subst hsize
      cases hfound : t.property? id name with
      | some property =>
          exact .after spares_checkAccess fun _ => .pure ⟨rfl, ht.property? hfound⟩
      | none => exact .after spares_reportUnknownMember fun _ => keepsAt_mixed

lemma keepsAt_constantType (owner : Option ClassId) {name : String} {p : Position} :
    KeepsAt n (Ty.Within n) (constantType owner name p) := by
  cases owner with
  | none => exact keepsAt_mixed
  | some id =>
      refine .classes fun t ht hsize => ?_
      subst hsize
      cases hfound : t.constant? id name with
      | some constant =>
          exact .after spares_checkAccess fun _ => .pure ⟨rfl, ht.constant? hfound⟩
      | none => exact .after spares_reportUnknownMember fun _ => keepsAt_mixed

@[grind ←]
lemma spares_objectClass (object : Facts) : Spares (objectClass object) := by
  rw [objectClass.eq_def]
  cases object.type with
  | ofClass id name => exact .pure
  | mixed => exact .pure
  | object => exact .pure
  | _ => exact spares_report.bind fun _ => .pure

@[grind ←]
lemma spares_thisClass? : Spares thisClass? := by
  rw [thisClass?]
  grind

@[grind ←]
lemma spares_castAhead? : Spares castAhead? := by
  rw [castAhead?]
  grind

section Parts

variable {expr : ExprReader} (hexpr : ∀ power, KeepsAt n (Facts.Within n) (expr power))
include hexpr

lemma keepsAt_argumentsFrom (depth : Nat) {args : List Facts} (hargs : ∀ a ∈ args, a.Within n) :
    KeepsAt n (fun args => ∀ a ∈ args, a.Within n) (argumentsFrom expr depth args) := by
  induction depth generalizing args with
  | zero => exact keeps_spent
  | succ depth ih =>
      refine .onKind fun here => ?_
      split
      case isTrue => exact .pure ⟨rfl, hargs⟩
      case isFalse =>
        split
        case isTrue => exact .advance fun _ => ih hargs
        case isFalse =>
          refine (hexpr .comma).bind fun arg harg => .onKind fun next => ?_
          split
          case isTrue =>
            exact ih (forall_mem_concat hargs harg)
          case isFalse => exact keeps_reject

lemma keepsAt_arguments :
    KeepsAt n (fun args => ∀ a ∈ args, a.Within n) (arguments expr) := by
  refine .require fun _ => .bound fun depth => ?_
  refine (keepsAt_argumentsFrom hexpr depth (List.forall_mem_nil _)).bind fun args hargs => ?_
  exact .require fun _ => .pure ⟨rfl, hargs⟩

lemma keepsAt_methodCall (owner : Option ClassId) {name : String} {p : Position} :
    KeepsAt n (Facts.Within n) (methodCall expr owner name p) := by
  refine (keepsAt_arguments hexpr).bind fun args hargs => ?_
  cases owner with
  | none =>
      exact keepsAt_mixed.bind fun type htype =>
        .pure ⟨rfl, htype, (within_allRaises hargs)⟩
  | some id =>
      refine .classes fun t ht hsize => ?_
      subst hsize
      dsimp only
      split
      case h_1 =>
        refine .after spares_reportUnknownMember fun _ => ?_
        exact keepsAt_mixed.bind fun type htype => .pure ⟨rfl, htype, .empty⟩
      case h_2 method hfound =>
        have hsignature : method.signature.Within t.size := by
          split at hfound
          · exact ht.constructorOf? hfound
          · exact ht.method? hfound
        refine .after spares_checkAccess fun _ => ?_
        refine (keepsAt_checkedCall hsignature hargs p).bind fun raises hraises => ?_
        exact (keepsAt_callType hsignature).bind fun type htype =>
          .pure ⟨rfl, htype, hraises⟩

lemma keepsAt_staticAccess {name : String} {p : Position} :
    KeepsAt n (Facts.Within n) (staticAccess expr name p) := by
  refine .require fun _ => ?_
  refine .peek (peeks_classNamed? name) fun owner => ?_
  refine .when spares_report fun _ => ?_
  refine .advance fun token => .peek peeks_positionOf fun q => ?_
  split
  · exact keepsAt_typeOf.bind fun type htype => .pure ⟨rfl, htype, .empty⟩
  · refine .onKind fun next => ?_
    split
    · refine (keepsAt_methodCall hexpr owner).bind fun result hresult => .pure ⟨rfl, ?_⟩
      exact ⟨hresult.type, hresult.raises⟩
    · exact (keepsAt_constantType owner).bind fun type htype =>
        .pure ⟨rfl, htype, .empty⟩
  · exact (keepsAt_propertyType owner).bind fun type htype =>
      .pure ⟨rfl, htype, .empty⟩
  · exact keeps_rejectToken token

lemma keepsAt_memberAccess {object : Facts} (hobject : object.Within n) :
    KeepsAt n (Facts.Within n) (memberAccess expr object) := by
  refine .require fun _ => .after (spares_objectClass object) fun owner => ?_
  refine .advance fun token => .peek peeks_positionOf fun p => ?_
  split
  · have hlast : ∀ result : Facts, result.Within n → KeepsAt n (Facts.Within n) (pure
        { result with raises := result.raises ∪ object.raises, position := object.position }) :=
      fun result hresult =>
        .pure ⟨rfl, hresult.type, hresult.raises.union hobject.raises⟩
    refine .onKind fun next => ?_
    split
    · exact (keepsAt_methodCall hexpr owner).bind hlast
    · exact (keepsAt_propertyType owner).bind fun type htype =>
        hlast _ ⟨htype, .empty⟩
  · exact keepsAt_mixed.bind fun type htype => .pure ⟨rfl, htype, .empty⟩
  · exact keeps_rejectToken token

/-! ### Operands -/

omit hexpr in
lemma keepsAt_literal : KeepsAt n (Facts.Within n) literal := by
  refine .advance fun token => .peek peeks_positionOf fun p => ?_
  split
  case h_6 => exact keeps_rejectToken token
  all_goals exact keepsAt_typeOf.bind fun type htype => .pure ⟨rfl, htype, .empty⟩

omit hexpr in
lemma keepsAt_variableUse : KeepsAt n (Facts.Within n) variableUse := by
  refine .advance fun token => .peek peeks_positionOf fun p => ?_
  split
  · refine .after spares_thisClass? fun owner => ?_
    cases owner with
    | some id =>
        exact (keepsAt_instanceType id).bind fun type htype => .pure ⟨rfl, htype, .empty⟩
    | none =>
        refine .after spares_report fun _ => ?_
        exact keepsAt_mixed.bind fun type htype => .pure ⟨rfl, htype, .empty⟩
  · have hlast : ∀ type : Ty, type.Within n → KeepsAt n (Facts.Within n)
        (pure { type := type, position := p, target := some (.var token.value) }) :=
      fun type htype => .pure ⟨rfl, htype, .empty⟩
    refine (keepsAt_variableNamed? token.value).bind fun found hfound => ?_
    cases found with
    | some v => exact hlast v.type (hfound v rfl)
    | none =>
        refine .onKind fun next => ?_
        exact .unless spares_report fun _ => keepsAt_mixed.bind hlast

lemma keepsAt_nameUse : KeepsAt n (Facts.Within n) (nameUse expr) := by
  refine .advance fun token => .peek peeks_positionOf fun p => ?_
  refine .onKind fun next => ?_
  split
  · exact keepsAt_staticAccess hexpr
  · split
    · exact keeps_rejectToken token
    · split
      · refine .get fun s hs hsize => ?_
        subst hsize
        refine (keepsAt_arguments hexpr).bind fun args hargs => ?_
        cases hfound : s.env.function? token.value with
        | some entry =>
            have hsignature := hs.env.function? hfound
            refine (keepsAt_checkedCall hsignature hargs p).bind fun raises hraises => ?_
            exact (keepsAt_callType hsignature).bind fun type htype =>
              .pure ⟨rfl, htype, hraises⟩
        | none =>
            refine .after spares_report fun _ => ?_
            exact keepsAt_mixed.bind fun type htype =>
              .pure ⟨rfl, htype, (within_allRaises hargs)⟩
      · refine .get fun s hs hsize => ?_
        subst hsize
        cases hfound : s.env.constant? token.value with
        | some type => exact .pure ⟨rfl, hs.env.constant? hfound, .empty⟩
        | none => exact keepsAt_mixed.bind fun type htype => .pure ⟨rfl, htype, .empty⟩

lemma keepsAt_signed : KeepsAt n (Facts.Within n) (signed expr) := by
  refine .advance fun operator => .peek peeks_positionOf fun p => ?_
  refine (hexpr .unary).bind fun right hright => ?_
  dsimp only
  split
  · exact keepsAt_typeOf.bind fun type htype => .pure ⟨rfl, htype, hright.raises⟩
  · split
    · exact keeps_rejectToken operator
    · split
      · exact .pure ⟨rfl, hright.type, hright.raises⟩
      · exact keepsAt_mixed.bind fun type htype => .pure ⟨rfl, htype, hright.raises⟩

lemma keepsAt_grouped : KeepsAt n (Facts.Within n) (grouped expr) := by
  refine .advance fun opening => .peek peeks_positionOf fun p => ?_
  refine .after spares_castAhead? fun cast => ?_
  cases cast with
  | some descriptor =>
      refine .advance fun _ => .advance fun _ => ?_
      refine (hexpr .unary).bind fun operand hoperand => ?_
      exact keepsAt_typeOf.bind fun type htype => .pure ⟨rfl, htype, hoperand.raises⟩
  | none =>
      refine (hexpr .lowest).bind fun inner hinner => ?_
      exact .require fun _ => .pure ⟨rfl, hinner.type, hinner.raises⟩

lemma keepsAt_arrayItem : KeepsAt n (fun item => item.raises.Within n) (arrayItem expr) := by
  refine (hexpr .comma).bind fun first hfirst => .takes fun hasKey => ?_
  split
  · exact (hexpr .comma).bind fun value hvalue => .pure ⟨rfl, hfirst.raises.union hvalue.raises⟩
  · exact .pure ⟨rfl, hfirst.raises⟩

lemma keepsAt_arrayItems {close : Kind} (depth : Nat) {items : List ArrayItem}
    (hitems : ∀ item ∈ items, item.raises.Within n) :
    KeepsAt n (fun items => ∀ item ∈ items, item.raises.Within n)
      (arrayItems expr close depth items) := by
  induction depth generalizing items with
  | zero => exact keeps_spent
  | succ depth ih =>
      refine .onKind fun here => ?_
      split
      case isTrue => exact .pure ⟨rfl, hitems⟩
      case isFalse =>
        refine (keepsAt_arrayItem hexpr).bind fun item hitem => ?_
        have hall : ∀ i ∈ items ++ [item], i.raises.Within n := forall_mem_concat hitems hitem
        refine .takes fun hasMore => ?_
        split
        case isTrue => exact ih hall
        case isFalse =>
          refine .onKind fun next => ?_
          split
          case isTrue => exact .pure ⟨rfl, hall⟩
          case isFalse => exact keeps_reject

omit hexpr in
lemma within_itemRaises {items : List ArrayItem} (h : ∀ item ∈ items, item.raises.Within n) :
    (items.foldr (fun (item : ArrayItem) raises => item.raises ∪ raises) ∅).Within n := by
  induction items with
  | nil => exact .empty
  | cons item items ih =>
      obtain ⟨hitem, hitems⟩ := List.forall_mem_cons.mp h
      exact hitem.union (ih hitems)

lemma keepsAt_arrayLiteral : KeepsAt n (Facts.Within n) (arrayLiteral expr) := by
  refine .advance fun opening => .peek peeks_positionOf fun p => ?_
  refine .optional spares_require (.bound fun depth => ?_)
  refine (keepsAt_arrayItems hexpr depth (List.forall_mem_nil _)).bind fun items hitems => ?_
  refine .require fun _ => keepsAt_typeOf.bind fun type htype => ?_
  exact .pure ⟨rfl, htype, (within_itemRaises hitems)⟩

lemma keepsAt_instanceCreation : KeepsAt n (Facts.Within n) (instanceCreation expr) := by
  refine .advance fun word => .peek peeks_positionOf fun start => ?_
  refine .advance fun token => .unless (spares_rejectToken token) fun _ => ?_
  refine .peek peeks_positionOf fun p => .onKind fun next => ?_
  refine KeepsAt.either (keepsAt_arguments hexpr) (.pure ⟨rfl, List.forall_mem_nil _⟩) ?_
  intro args hargs
  refine .peek (peeks_classNamed? token.value) fun found => ?_
  cases found with
  | none =>
      refine .after spares_report fun _ => keepsAt_mixed.bind fun type htype => ?_
      exact .pure ⟨rfl, htype, (within_allRaises hargs)⟩
  | some id =>
      refine .classes fun t ht hsize => ?_
      subst hsize
      have hlast : ∀ raises : NatSet, raises.Within t.size →
          KeepsAt t.size (Facts.Within t.size) (do
            return {
              type := ← instanceType id
              position := start
              truth := some true
              raises := raises }) :=
        fun raises hraises => (keepsAt_instanceType id).bind fun type htype =>
          .pure ⟨rfl, htype, hraises⟩
      dsimp only
      split
      case' h_1 => refine .unless spares_report fun _ => ?_
      all_goals
        cases hfound : t.constructorOf? id with
        | some constructor =>
            refine .after spares_checkAccess fun _ => ?_
            exact (keepsAt_checkedCall (ht.constructorOf? hfound) hargs p).bind hlast
        | none => exact (keepsAt_checkedCall .empty hargs p).bind hlast

lemma keepsAt_operand : KeepsAt n (Facts.Within n) (operand expr) := by
  refine .onKind fun here => ?_
  split
  case h_6 => exact keepsAt_variableUse
  case h_7 | h_8 => exact keepsAt_nameUse hexpr
  case h_9 | h_10 | h_11 | h_12 | h_13 => exact keepsAt_signed hexpr
  case h_14 => exact keepsAt_grouped hexpr
  case h_15 | h_16 => exact keepsAt_arrayLiteral hexpr
  case h_17 => exact keepsAt_instanceCreation hexpr
  case h_18 => exact keeps_reject
  all_goals exact keepsAt_literal

/-! ### Operators -/

omit hexpr in
lemma keepsAt_targetType? {target : Place} {assigned : Ty} (hassigned : assigned.Within n) :
    KeepsAt n (fun _ => True) (targetType? target assigned) := by
  cases target with
  | typed type => exact .pure ⟨rfl, trivial⟩
  | var name =>
      refine (keepsAt_variableNamed? name).bind fun found _ => ?_
      cases found with
      | some v => exact .pure ⟨rfl, trivial⟩
      | none =>
          have hlast : ∀ type : Ty, type.Within n → KeepsAt n (fun _ => True)
              (do setVariable name type false; pure (none : Option Ty)) :=
            fun type htype => (keepsAt_setVariable name htype false).bind fun _ _ =>
              .pure ⟨rfl, trivial⟩
          dsimp only
          split
          · exact keepsAt_mixed.bind hlast
          · exact hlast assigned hassigned

lemma keepsAt_assignment {left : Facts} (hleft : left.Within n) :
    KeepsAt n (Facts.Within n) (assignment expr left) := by
  refine .advance fun operator => (hexpr .comma).bind fun right hright => ?_
  have hraises := hleft.raises.union hright.raises
  cases htarget : left.target with
  | none => exact .peek peeks_positionOf fun p => keeps_fail
  | some target =>
      refine (keepsAt_targetType? hright.type).bind fun expected _ => ?_
      have hlast : KeepsAt n (Facts.Within n) (pure {
          type := if operator.kind == .assign then right.type else left.type
          position := left.position
          raises := left.raises ∪ right.raises }) := by
        split
        · exact .pure ⟨rfl, hright.type, hraises⟩
        · exact .pure ⟨rfl, hleft.type, hraises⟩
      cases expected with
      | none => exact hlast
      | some expected => exact .when spares_checkType fun _ => hlast

lemma keepsAt_firstBranch {condition : Facts} (hcondition : condition.Within n) :
    KeepsAt n (Facts.Within n) (firstBranch expr condition) := by
  refine .takes fun isShort => ?_
  split
  · exact .pure ⟨rfl, hcondition⟩
  · refine (hexpr .assignment).bind fun branch hbranch => ?_
    exact .require fun _ => .pure ⟨rfl, hbranch⟩

lemma keepsAt_conditional {condition : Facts} (hcondition : condition.Within n) :
    KeepsAt n (Facts.Within n) (conditional expr condition) := by
  refine .require fun _ => ?_
  refine (keepsAt_firstBranch hexpr hcondition).bind fun yes hyes => ?_
  refine (hexpr .assignment).bind fun no hno => ?_
  have hraises := hcondition.raises.union (hyes.raises.union hno.raises)
  dsimp only
  split
  · exact .pure ⟨rfl, hyes.type, hraises⟩
  · exact .pure ⟨rfl, hno.type, hraises⟩
  · exact (keepsAt_unify hyes.type hno.type).bind fun type htype =>
      .pure ⟨rfl, htype, hraises⟩

lemma keepsAt_logical (power : Power) {left : Facts} (hleft : left.Within n) :
    KeepsAt n (Facts.Within n) (logical expr power left) := by
  refine .advance fun operator => (hexpr power).bind fun right hright => ?_
  exact keepsAt_typeOf.bind fun type htype =>
    .pure ⟨rfl, htype, (hleft.raises.union hright.raises)⟩

lemma keepsAt_comparison (power : Power) {left : Facts} (hleft : left.Within n) :
    KeepsAt n (Facts.Within n) (comparison expr power left) := by
  refine .advance fun _ => (hexpr power).bind fun right hright => ?_
  exact keepsAt_typeOf.bind fun type htype =>
    .pure ⟨rfl, htype, (hleft.raises.union hright.raises)⟩

omit hexpr in
lemma keepsAt_arithmeticType {operator : Kind} {left right : Ty} :
    KeepsAt n (Ty.Within n) (arithmeticType operator left right) := by
  rw [arithmeticType.eq_def]
  split
  · exact keepsAt_typeOf
  · exact keepsAt_typeOf
  · exact keepsAt_typeOf
  · split
    · exact keepsAt_typeOf
    · split
      · exact keepsAt_typeOf
      · exact keepsAt_mixed

lemma keepsAt_arithmetic (power : Power) {left : Facts} (hleft : left.Within n) :
    KeepsAt n (Facts.Within n) (arithmetic expr power left) := by
  refine .advance fun operator => (hexpr power).bind fun right hright => ?_
  exact keepsAt_arithmeticType.bind fun type htype =>
    .pure ⟨rfl, htype, (hleft.raises.union hright.raises)⟩

omit hexpr in
lemma keepsAt_step {left : Facts} (hleft : left.Within n) :
    KeepsAt n (Facts.Within n) (step left) := by
  refine .advance fun operator => ?_
  split
  · exact keeps_rejectToken operator
  · exact .pure ⟨rfl, hleft.type, hleft.raises⟩

lemma keepsAt_testedClass : KeepsAt n (NatSet.Within n) (testedClass expr) := by
  refine .onKind fun here => ?_
  split
  case h_3 => exact (hexpr .member).bind fun facts hfacts => .pure ⟨rfl, hfacts.raises⟩
  all_goals
    refine .advance fun token => ?_
    refine .peek (peeks_classNamed? token.value) fun found => ?_
    split
    · exact .peek peeks_positionOf fun p => .after spares_report fun _ =>
        .pure ⟨rfl, .empty⟩
    · exact .pure ⟨rfl, .empty⟩

lemma keepsAt_instanceTest {left : Facts} (hleft : left.Within n) :
    KeepsAt n (Facts.Within n) (instanceTest expr left) := by
  refine .advance fun _ => ?_
  refine (keepsAt_testedClass hexpr).bind fun raises hraises => ?_
  exact keepsAt_typeOf.bind fun type htype =>
    .pure ⟨rfl, htype, (hleft.raises.union hraises)⟩

lemma keepsAt_valueCall {left : Facts} (hleft : left.Within n) :
    KeepsAt n (Facts.Within n) (valueCall expr left) := by
  refine (keepsAt_arguments hexpr).bind fun args hargs => ?_
  exact keepsAt_mixed.bind fun type htype =>
    .pure ⟨rfl, htype, (hleft.raises.union (within_allRaises hargs))⟩

omit hexpr in
/-- The classes of an element are among those of its container. -/
lemma keepsAt_elementType {left : Ty} (hleft : left.Within n) (key : Option Facts) :
    KeepsAt n (Ty.Within n) (elementType left key) := by
  cases left with
  | container keys element =>
      have helement : element.Within n := hleft
      cases key with
      | none => exact .pure ⟨rfl, helement⟩
      | some key => exact .when spares_report fun _ => .pure ⟨rfl, helement⟩
  | string => exact .pure ⟨rfl, trivial⟩
  | _ => exact keepsAt_mixed

lemma keepsAt_indexKey? :
    KeepsAt n (fun key => ∀ facts ∈ key, facts.Within n) (indexKey? expr) := by
  refine .onKind fun here => ?_
  split
  · exact .pure ⟨rfl, by rintro _ ⟨⟩⟩
  · exact (hexpr .lowest).bind fun facts hfacts =>
      .pure ⟨rfl, by rintro _ ⟨⟩; exact hfacts⟩

lemma keepsAt_indexed {left : Facts} (hleft : left.Within n) :
    KeepsAt n (Facts.Within n) (indexed expr left) := by
  refine .require fun _ => (keepsAt_indexKey? hexpr).bind fun key hkey => ?_
  refine .require fun _ => ?_
  refine (keepsAt_elementType hleft.type key).bind fun element helement => ?_
  have hkeys : (allRaises key.toList).Within n :=
    within_allRaises fun facts hfacts => hkey facts (Option.mem_toList.mp hfacts)
  exact .pure ⟨rfl, helement, (hleft.raises.union hkeys)⟩

lemma keepsAt_operator (power : Power) {left : Facts} (hleft : left.Within n) :
    KeepsAt n (Facts.Within n) (operator expr power left) := by
  refine .onKind fun here => ?_
  split
  case h_7 => exact keepsAt_conditional hexpr hleft
  case h_8 | h_9 => exact keepsAt_logical hexpr power hleft
  case h_10 | h_11 | h_12 | h_13 | h_14 | h_15 | h_16 | h_17 =>
    exact keepsAt_comparison hexpr power hleft
  case h_18 | h_19 | h_20 | h_21 | h_22 | h_23 => exact keepsAt_arithmetic hexpr power hleft
  case h_24 => exact keepsAt_instanceTest hexpr hleft
  case h_25 | h_26 => exact keepsAt_step hleft
  case h_27 => exact keepsAt_valueCall hexpr hleft
  case h_28 => exact keepsAt_indexed hexpr hleft
  case h_29 => exact keepsAt_memberAccess hexpr hleft
  case h_30 => exact keeps_reject
  all_goals exact keepsAt_assignment hexpr hleft

lemma keepsAt_operators (power : Power) (depth : Nat) {left : Facts} (hleft : left.Within n) :
    KeepsAt n (Facts.Within n) (operators expr power depth left) := by
  induction depth generalizing left with
  | zero => exact keeps_spent
  | succ depth ih =>
      refine .onKind fun here => ?_
      split
      case h_1 => exact .pure ⟨rfl, hleft⟩
      case h_2 tighter _ =>
        split
        case isTrue => exact .pure ⟨rfl, hleft⟩
        case isFalse => exact (keepsAt_operator hexpr tighter hleft).bind fun next hnext => ih hnext

end Parts

/-! ### The reader of expressions -/

lemma keepsAt_exprWithin (depth : Nat) (power : Power) :
    KeepsAt n (Facts.Within n) (exprWithin depth power) := by
  induction depth generalizing power with
  | zero => exact keeps_spent
  | succ depth ih =>
      refine (keepsAt_operand ih).bind fun left hleft => .bound fun bound => ?_
      exact keepsAt_operators ih power bound hleft

lemma keepsAt_expr {power : Power} : KeepsAt n (Facts.Within n) (expr power) :=
  .bound fun depth => keepsAt_exprWithin depth power

end Check

end ScriptCheck
