import ScriptCheck.Proofs.Analysis.Composed

/-!
The reader of expressions is put together from steps.

Each reader of an operand or operator is, if the reader of expressions that it takes is; by
induction over the depth so is the reader of expressions itself (`composed_expr`).
-/

namespace ScriptCheck.Check

variable {w : Extent} {expr : ExprReader}

/-! ### Checks and types of parts -/

@[grind ←]
lemma steady_unify {a b : Ty} : Steady w (unify a b) := by
  rw [unify]
  grind

@[grind ←]
lemma steady_callType {signature : Signature} : Steady w (callType signature) := by
  rw [callType]
  grind

@[grind ←]
lemma steady_checkArguments (signature : Signature) (index : Nat) (args : List Facts) :
    Steady w (checkArguments signature index args) := by
  induction args generalizing index with
  | nil => exact .pure _
  | cons arg args ih =>
      rw [checkArguments]
      split
      · exact steady_refuse _ _ _ rfl _ fun _ => ih _
      · exact ih _

@[grind ←]
lemma steady_checkedCall {signature : Signature} {args : List Facts} {position : Position} :
    Steady w (checkedCall signature args position) := by
  rw [checkedCall]
  grind

@[grind ←]
lemma steady_checkAccess {m : Member} {position : Position} :
    Steady w (checkAccess m position) := by
  refine .get (fun s => ?_) fun s => rfl
  grind

@[grind ←]
lemma steady_reportUnknownMember {id : ClassId} {member : String} {position : Position} :
    Steady w (reportUnknownMember id member position) := by
  rw [reportUnknownMember]
  grind

@[grind ←]
lemma steady_propertyType {owner : Option ClassId} {name shown : String} {position : Position} :
    Steady w (propertyType owner name shown position) := by
  cases owner with
  | none => exact steady_mixed
  | some id =>
      refine steady_classes.bind fun t => ?_
      grind

@[grind ←]
lemma steady_constantType {owner : Option ClassId} {name : String} {position : Position} :
    Steady w (constantType owner name position) := by
  cases owner with
  | none => exact steady_mixed
  | some id =>
      refine steady_classes.bind fun t => ?_
      grind

@[grind ←]
lemma steady_objectClass {object : Facts} : Steady w (objectClass object) := by
  rw [objectClass]
  grind

@[grind ←]
lemma steady_thisClass? : Steady w thisClass? := by
  refine .get (fun s => ?_) fun s => rfl
  grind

/-- A variable that an expression declares was not declared before. -/
lemma targetType?_var (name : String) (assigned : Ty) :
    targetType? (.var name) assigned = variableNamed? name >>= fun found => found.elim
      ((if assigned.isNull then mixed else Pure.pure assigned) >>= fun type =>
        declareNew name type false >>= fun _ => Pure.pure none)
      fun v => Pure.pure (some v.type) := by
  funext s
  have hlook : variableNamed? name s = .ok (s.scope.lookup name) s := rfl
  rw [targetType?]
  dsimp only
  rw [bind_of_ok hlook, bind_of_ok hlook]
  cases hfound : s.scope.lookup name with
  | some v => rfl
  | none =>
      have hnew : ∀ (type : Ty) (s' : State), s'.scope = s.scope →
          declareNew name type false s' = setVariable name type false s' := by
        intro type s' hscope
        rw [declareNew, hscope, hfound]
        rfl
      dsimp only [Option.elim_none]
      split
      · -- the type is compiled in between, which leaves the variables as they are
        obtain ⟨type, hrun⟩ := typeOf_run "mixed" s
        have hmixed : mixed s = _ := hrun
        rw [bind_of_ok hmixed, bind_of_ok hmixed]
        refine bind_congr_run (hnew type _ ?_).symm
        rfl
      · rw [pure_bind, pure_bind]
        exact bind_congr_run (hnew assigned s rfl).symm

@[grind ←]
lemma steady_targetType? {target : Place} {assigned : Ty} :
    Steady w (targetType? target assigned) := by
  cases target with
  | typed type => exact .pure _
  | var name =>
      rw [targetType?_var]
      refine (steady_variableNamed? name).bind fun found => ?_
      cases found with
      | some v => exact .pure _
      | none =>
          refine Steady.bind ?_ fun type => (Steady.declareNew _ _ _).bind fun _ => .pure _
          split
          · exact steady_mixed
          · exact .pure _

@[grind ←]
lemma steady_arithmeticType {operator : Kind} {left right : Ty} :
    Steady w (arithmeticType operator left right) := by
  rw [arithmeticType.eq_def]
  split <;> grind

@[grind ←]
lemma steady_elementType {left : Ty} {key : Option Facts} :
    Steady w (elementType left key) := by
  rw [elementType.eq_def]
  split <;> grind

/-! ### Calls and members -/

section Parts

variable (hexpr : ∀ power, Composed w (expr power))
include hexpr

@[grind ←]
lemma composed_argumentsFrom (fuel : Nat) (args : List Facts) :
    Composed w (argumentsFrom expr fuel args) := by
  induction fuel generalizing args with
  | zero => exact composed_spent
  | succ fuel ih =>
      rw [argumentsFrom]
      grind

@[grind ←]
lemma composed_arguments : Composed w (arguments expr) := by
  rw [arguments]
  grind

@[grind ←]
lemma composed_methodCall (owner : Option ClassId) (name : String) (position : Position) :
    Composed w (methodCall expr owner name position) := by
  refine (composed_arguments hexpr).bind fun args => ?_
  cases owner with
  | none => grind
  | some id =>
      refine steady_classes.composed.bind fun t => ?_
      extract_lets found
      cases found <;> grind

@[grind ←]
lemma composed_staticAccess {name : String} {position : Position} :
    Composed w (staticAccess expr name position) := by
  refine .require fun _ => steady_classNamed?.composed.bind fun owner => ?_
  extract_lets member
  have hmember : ∀ u, Composed w (member u) := by
    refine fun _ => .advance fun token => .positionOf fun place => ?_
    split <;> grind
  grind

@[grind ←]
lemma composed_memberAccess (object : Facts) : Composed w (memberAccess expr object) := by
  refine .require fun _ => steady_objectClass.composed.bind fun owner => ?_
  refine .advance fun token => .positionOf fun position => ?_
  split <;> grind

/-! ### Operands -/

omit hexpr in
@[grind ←]
lemma composed_literal : Composed w literal := by
  rw [literal]
  grind

omit hexpr in
@[grind ←]
lemma composed_variableUse : Composed w variableUse := by
  refine .advance fun token => .positionOf fun position => ?_
  split
  · grind
  · grind

@[grind ←]
lemma composed_nameUse : Composed w (nameUse expr) := by
  refine .advance fun token => .positionOf fun position => ?_
  refine .onKind fun next => ?_
  split
  · exact composed_staticAccess hexpr
  · split
    · exact composed_rejectToken _
    · split
      · refine .get (fun s => (composed_arguments hexpr).bind fun args => ?_) fun s => rfl
        grind
      · refine .get (fun s => ?_) fun s => rfl
        grind

@[grind ←]
lemma composed_signed : Composed w (signed expr) := by
  rw [signed]
  grind

omit hexpr in
@[grind ←]
lemma composed_castAhead? : Composed w castAhead? := by
  rw [castAhead?]
  grind

@[grind ←]
lemma composed_grouped : Composed w (grouped expr) := by
  refine .advance fun opening => .positionOf fun position => ?_
  refine composed_castAhead?.bind fun cast => ?_
  cases cast <;> grind

@[grind ←]
lemma composed_arrayItem : Composed w (arrayItem expr) := by
  rw [arrayItem]
  grind

@[grind ←]
lemma composed_arrayItems (close : Kind) (fuel : Nat) (items : List ArrayItem) :
    Composed w (arrayItems expr close fuel items) := by
  induction fuel generalizing items with
  | zero => exact composed_spent
  | succ fuel ih =>
      rw [arrayItems]
      grind

@[grind ←]
lemma composed_arrayLiteral : Composed w (arrayLiteral expr) := by
  refine .advance fun opening => .positionOf fun position => ?_
  grind

@[grind ←]
lemma composed_instanceCreation : Composed w (instanceCreation expr) := by
  refine .advance fun start => .positionOf fun start => ?_
  refine .advance fun token => ?_
  extract_lets named
  have hnamed : ∀ u, Composed w (named u) := by
    refine fun _ => .positionOf fun position => ?_
    refine .onKind fun next => ?_
    extract_lets made
    have hmade : ∀ args, Composed w (made args) := by
      refine fun args => steady_classNamed?.composed.bind fun found => ?_
      cases found with
      | none => grind
      | some id =>
          refine steady_classes.composed.bind fun t => ?_
          grind
    clear_value made
    grind
  clear_value named
  grind

lemma composed_operand : Composed w (operand expr) := by
  refine .onKind fun next => ?_
  split <;> grind

/-! ### Operators -/

@[grind ←]
lemma composed_assignment (left : Facts) : Composed w (assignment expr left) := by
  refine .advance fun operator => (hexpr _).bind fun right => ?_
  split <;> grind

@[grind ←]
lemma composed_firstBranch (condition : Facts) : Composed w (firstBranch expr condition) := by
  rw [firstBranch]
  grind

@[grind ←]
lemma composed_conditional (condition : Facts) : Composed w (conditional expr condition) := by
  rw [conditional]
  grind

@[grind ←]
lemma composed_logical (power : Power) (left : Facts) : Composed w (logical expr power left) := by
  rw [logical]
  grind

@[grind ←]
lemma composed_comparison (power : Power) (left : Facts) :
    Composed w (comparison expr power left) := by
  rw [comparison]
  grind

@[grind ←]
lemma composed_arithmetic (power : Power) (left : Facts) :
    Composed w (arithmetic expr power left) := by
  rw [arithmetic]
  grind

omit hexpr in
@[grind ←]
lemma composed_step (left : Facts) : Composed w (step left) := by
  rw [step]
  grind

@[grind ←]
lemma composed_testedClass : Composed w (testedClass expr) := by
  refine .onKind fun next => ?_
  split <;> grind

@[grind ←]
lemma composed_instanceTest (left : Facts) : Composed w (instanceTest expr left) := by
  rw [instanceTest]
  grind

@[grind ←]
lemma composed_valueCall (left : Facts) : Composed w (valueCall expr left) := by
  rw [valueCall]
  grind

@[grind ←]
lemma composed_indexKey? : Composed w (indexKey? expr) := by
  rw [indexKey?]
  grind

@[grind ←]
lemma composed_indexed (left : Facts) : Composed w (indexed expr left) := by
  rw [indexed]
  grind

lemma composed_operator {power : Power} (left : Facts) : Composed w (operator expr power left) := by
  refine .onKind fun next => ?_
  split <;> grind

/-! ### Expressions -/

lemma composed_operators (power : Power) (fuel : Nat) (left : Facts) :
    Composed w (operators expr power fuel left) := by
  induction fuel generalizing left with
  | zero => exact composed_spent
  | succ fuel ih =>
      refine .onKind fun next => ?_
      split
      · exact .pure _
      · split
        · exact .pure _
        · exact (composed_operator hexpr left).bind ih

end Parts

lemma composed_exprWithin (depth : Nat) (power : Power) :
    Composed w (exprWithin depth power) := by
  induction depth generalizing power with
  | zero => exact composed_spent
  | succ depth ih =>
      refine (composed_operand ih).bind fun left => .bound fun fuel => ?_
      exact composed_operators ih power fuel left

/-- The reader of expressions is put together from steps. -/
@[grind ←]
lemma composed_expr {power : Power} : Composed w (Check.expr power) :=
  .bound fun depth => composed_exprWithin depth power

end ScriptCheck.Check
