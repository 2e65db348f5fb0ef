import ScriptCheck.Proofs.Analysis.Expr.Composition

/-!
Expressions read on.

The readers of operands and operators take the reader of expressions as an argument. If that one
consumes a token whenever it gives a result, with at most `n` tokens left, then so do they with at
most `n + 1`, since each reads a token of its own first (`consumes_operand`, `consumes_operator`).
By induction over the depth the reader of expressions consumes, and the number of tokens that are
left is depth enough for it (`consumes_expr`).
-/

namespace ScriptCheck.Check

variable {w : Extent} {n r : Nat} {expr : ExprReader}

/-! ### Calls -/

section Parts

variable (hexpr : ∀ power, Consumes w n (expr power))
include hexpr

/-- Every round of the loop over the arguments consumes a comma or an argument. -/
lemma reads_argumentsFrom (args : List Facts) (hr : r ≤ n) :
    Reads w r (argumentsFrom expr (r + 1) args) := by
  induction r generalizing args with
  | zero => exact fun s => .zero
  | succ r ih =>
      intro s
      unfold argumentsFrom
      refine .kind ?_
      split
      · exact Reads.pure s
      · split
        case isTrue hcomma =>
          have hk : s.cursor.kind ≠ .eof :=
            ne_eof_of_beq (Bool.and_eq_true_iff.mp hcomma).1 (by decide)
          exact (opens_advance.bind fun _ => ih args (by omega)).runs hk
        case isFalse =>
          refine ((hexpr _).le hr s).bind_succ fun arg => .onKind fun next => ?_
          split
          · exact ih _ (by omega)
          · exact consumes_reject.reads

lemma opens_arguments : Opens w n (arguments expr) := by
  refine opens_require.bind fun _ => .bound fun r hr => ?_
  refine (reads_argumentsFrom hexpr _ hr).bind fun args => ?_
  exact .require fun _ => .pure

lemma reads_methodCall {owner : Option ClassId} {name : String} {position : Position} :
    Reads w n (methodCall expr owner name position) := by
  refine (opens_arguments hexpr).reads.bind fun args => ?_
  cases owner with
  | none => exact steady_mixed.reads.bind fun _ => .pure
  | some id =>
      refine peeks_classes.reads.bind fun t => ?_
      dsimp only
      split
      · refine steady_reportUnknownMember.reads.bind fun _ => ?_
        exact steady_mixed.reads.bind fun _ => .pure
      · refine steady_checkAccess.reads.bind fun _ => ?_
        refine steady_checkedCall.reads.bind fun raises => ?_
        exact steady_callType.reads.bind fun _ => .pure

lemma reads_staticAccess {name : String} {position : Position} :
    Reads w n (staticAccess expr name position) := by
  refine .require fun _ => ?_
  refine (peeks_classNamed? _).reads.bind fun owner => ?_
  extract_lets after
  have hafter : ∀ u, Reads w n (after u) := by
    intro u
    refine .advance fun token => .positionOf fun position => ?_
    split
    · exact steady_typeOf.reads.bind fun _ => .pure
    · refine .onKind fun next => ?_
      split
      · exact (reads_methodCall hexpr).bind fun _ => .pure
      · exact steady_constantType.reads.bind fun _ => .pure
    · exact steady_propertyType.reads.bind fun _ => .pure
    · exact consumes_rejectToken.reads
  split
  · exact .report hafter
  · exact hafter ()

lemma opens_memberAccess (object : Facts) : Opens w n (memberAccess expr object) := by
  refine opens_require.bind fun _ => steady_objectClass.reads.bind fun owner => ?_
  refine .advance fun token => .positionOf fun position => ?_
  split
  · refine .onKind fun next => ?_
    extract_lets after
    split
    · exact (reads_methodCall hexpr).bind fun _ => .pure
    · exact steady_propertyType.reads.bind fun _ => Reads.pure.bind fun _ => .pure
  · exact steady_mixed.reads.bind fun _ => .pure
  · exact consumes_rejectToken.reads

/-! ### Operands -/

omit hexpr in
lemma opens_literal : Opens w n literal := by
  refine opens_advance.bind fun token => .positionOf fun position => ?_
  split
  iterate 5 exact steady_typeOf.reads.bind fun _ => .pure
  · exact consumes_rejectToken.reads

omit hexpr in
lemma peeks_thisClass? : Peeks thisClass? := by
  refine peeks_get.bind fun s => ?_
  split
  · exact .pure
  · exact .pure

omit hexpr in
lemma opens_variableUse : Opens w n variableUse := by
  refine opens_advance.bind fun token => .positionOf fun position => ?_
  split
  · refine peeks_thisClass?.reads.bind fun owner => ?_
    split
    · exact steady_instanceType.reads.bind fun _ => .pure
    · exact .report fun _ => steady_mixed.reads.bind fun _ => .pure
  · refine peeks_variableNamed?.reads.bind fun found => ?_
    split
    · exact Reads.pure.bind fun _ => .pure
    · refine .onKind fun next => ?_
      split
      · exact steady_mixed.reads.bind fun _ => .pure
      · exact .report fun _ => steady_mixed.reads.bind fun _ => .pure

lemma opens_nameUse : Opens w n (nameUse expr) := by
  refine opens_advance.bind fun token => .positionOf fun position => ?_
  refine .onKind fun next => ?_
  split
  · exact reads_staticAccess hexpr
  · split
    · exact consumes_rejectToken.reads
    · split
      · refine peeks_get.reads.bind fun s => (opens_arguments hexpr).reads.bind fun args => ?_
        split
        · refine steady_checkedCall.reads.bind fun raises => ?_
          exact steady_callType.reads.bind fun _ => .pure
        · exact .report fun _ => steady_mixed.reads.bind fun _ => .pure
      · refine peeks_get.reads.bind fun s => ?_
        split
        · exact Reads.pure.bind fun _ => .pure
        · exact steady_mixed.reads.bind fun _ => .pure

lemma opens_signed : Opens w n (signed expr) := by
  refine opens_advance.bind fun token => .positionOf fun position => ?_
  refine (hexpr _).reads.bind fun right => ?_
  extract_lets isStep
  split
  · exact steady_typeOf.reads.bind fun _ => .pure
  · split
    · exact consumes_rejectToken.reads
    · split
      · exact Reads.pure.bind fun _ => .pure
      · exact steady_mixed.reads.bind fun _ => .pure

omit hexpr in
lemma peeks_castAhead? : Peeks castAhead? := by
  refine peeks_current.bind fun token => (peeks_kindAhead 1).bind fun next => ?_
  split
  · exact .pure
  · exact .pure

lemma opens_grouped : Opens w n (grouped expr) := by
  refine opens_advance.bind fun opening => .positionOf fun position => ?_
  refine peeks_castAhead?.reads.bind fun cast => ?_
  split
  · refine .advance fun _ => .advance fun _ => ?_
    exact (hexpr _).reads.bind fun _ => steady_typeOf.reads.bind fun _ => .pure
  · exact (hexpr _).reads.bind fun _ => .require fun _ => .pure

lemma consumes_arrayItem : Consumes w n (arrayItem expr) := by
  refine (hexpr _).bind fun first => .takes fun isKey => ?_
  split
  · exact (hexpr _).reads.bind fun _ => .pure
  · exact .pure

/-- Every round of the loop over the elements consumes an element. -/
lemma reads_arrayItems {close : Kind} (items : List ArrayItem) (hr : r ≤ n) :
    Reads w r (arrayItems expr close (r + 1) items) := by
  induction r generalizing items with
  | zero => exact fun s => .zero
  | succ r ih =>
      have hitem := consumes_arrayItem fun power => (hexpr power).le hr
      refine .onKind fun next => ?_
      split
      · exact .pure
      · refine (hitem.bind_succ fun item => .takes fun more => ?_).reads
        split
        · exact ih _ (by omega)
        · refine .onKind fun next => ?_
          split
          · exact .pure
          · exact consumes_reject.reads

lemma opens_arrayLiteral : Opens w n (arrayLiteral expr) := by
  refine opens_advance.bind fun opening => .positionOf fun position => ?_
  extract_lets isWord close rest
  have hrest : ∀ u, Reads w n (rest u) := by
    refine fun _ => .bound fun r hr => ?_
    refine (reads_arrayItems hexpr _ hr).bind fun items => ?_
    exact .require fun _ => steady_typeOf.reads.bind fun _ => .pure
  split
  · exact .require fun _ => hrest ()
  · exact hrest ()

lemma opens_instanceCreation : Opens w n (instanceCreation expr) := by
  refine opens_advance.bind fun start => .positionOf fun start => ?_
  refine .advance fun token => ?_
  extract_lets named
  have hnamed : ∀ u, Reads w n (named u) := by
    refine fun _ => .positionOf fun position => ?_
    refine .onKind fun next => ?_
    extract_lets made
    have hmade : ∀ args, Reads w n (made args) := by
      refine fun args => (peeks_classNamed? _).reads.bind fun found => ?_
      cases found with
      | none => exact .report fun _ => steady_mixed.reads.bind fun _ => .pure
      | some id =>
          refine peeks_classes.reads.bind fun t => ?_
          extract_lets typed checked
          have htyped : ∀ raises, Reads w n (typed raises) :=
            fun _ => steady_instanceType.reads.bind fun _ => .pure
          have hchecked : ∀ u, Reads w n (checked u) := by
            intro u
            simp only [checked]
            split
            · refine steady_checkAccess.reads.bind fun _ => ?_
              exact steady_checkedCall.reads.bind htyped
            · exact steady_checkedCall.reads.bind htyped
          split
          · split
            · exact hchecked ()
            · exact .report hchecked
          · exact hchecked ()
    split
    · exact (opens_arguments hexpr).reads.bind hmade
    · exact Reads.pure.bind hmade
  split
  · exact hnamed ()
  · exact consumes_rejectToken.reads.bind hnamed

/-- With one token more than the parts are known to read, an operand is read. -/
lemma consumes_operand : Consumes w (n + 1) (operand expr) := by
  refine .byKind rfl fun s hk => ?_
  split
  iterate 5 exact opens_literal.runs hk
  · exact opens_variableUse.runs hk
  iterate 2 exact (opens_nameUse hexpr).runs hk
  iterate 5 exact (opens_signed hexpr).runs hk
  · exact (opens_grouped hexpr).runs hk
  iterate 2 exact (opens_arrayLiteral hexpr).runs hk
  · exact (opens_instanceCreation hexpr).runs hk
  · exact consumes_reject s

/-! ### Operators -/

lemma opens_assignment (left : Facts) : Opens w n (assignment expr left) := by
  refine opens_advance.bind fun operator => (hexpr _).reads.bind fun right => ?_
  split
  · exact .positionOf fun _ => consumes_fail.reads
  · refine steady_targetType?.reads.bind fun expected => ?_
    extract_lets isPlain after
    have hafter : ∀ u, Reads w n (after u) := fun _ => .pure
    split
    · split
      · exact steady_checkType.reads.bind hafter
      · exact hafter ()
    · exact hafter ()

lemma reads_firstBranch {condition : Facts} : Reads w n (firstBranch expr condition) := by
  refine .takes fun isShort => ?_
  split
  · exact .pure
  · exact (hexpr _).reads.bind fun _ => .require fun _ => .pure

lemma opens_conditional (condition : Facts) : Opens w n (conditional expr condition) := by
  refine opens_require.bind fun _ => ?_
  refine (reads_firstBranch hexpr).bind fun yes => (hexpr _).reads.bind fun no => ?_
  extract_lets truth typed
  have htyped : ∀ type, Reads w n (typed type) := fun _ => .pure
  split
  · exact Reads.pure.bind htyped
  · exact Reads.pure.bind htyped
  · exact steady_unify.reads.bind htyped

lemma opens_logical (power : Power) (left : Facts) : Opens w n (logical expr power left) := by
  refine opens_advance.bind fun operator => (hexpr _).reads.bind fun right => ?_
  exact steady_typeOf.reads.bind fun _ => .pure

lemma opens_comparison (power : Power) (left : Facts) : Opens w n (comparison expr power left) := by
  refine opens_advance.bind fun operator => (hexpr _).reads.bind fun right => ?_
  exact steady_typeOf.reads.bind fun _ => .pure

lemma opens_arithmetic (power : Power) (left : Facts) : Opens w n (arithmetic expr power left) := by
  refine opens_advance.bind fun operator => (hexpr _).reads.bind fun right => ?_
  exact steady_arithmeticType.reads.bind fun _ => .pure

omit hexpr in
lemma opens_step (left : Facts) : Opens w n (step left) := by
  refine opens_advance.bind fun operator => ?_
  split
  · exact consumes_rejectToken.reads
  · exact .pure

lemma reads_testedClass : Reads w n (testedClass expr) := by
  have hname : Reads w n (advance >>= fun token => do
      if (← classNamed? token.value).isNone then
        report (.unknownClass token.value) (← positionOf token)
      return (∅ : NatSet)) := by
    refine .advance fun token => (peeks_classNamed? _).reads.bind fun found => ?_
    split
    · exact .positionOf fun _ => .report fun _ => .pure
    · exact .pure
  refine .onKind fun next => ?_
  split
  · exact hname
  · exact hname
  · exact (hexpr _).reads.bind fun _ => .pure

lemma opens_instanceTest (left : Facts) : Opens w n (instanceTest expr left) := by
  refine opens_advance.bind fun _ => (reads_testedClass hexpr).bind fun raises => ?_
  exact steady_typeOf.reads.bind fun _ => .pure

lemma opens_valueCall (left : Facts) : Opens w n (valueCall expr left) := by
  exact (opens_arguments hexpr).bind fun args => steady_mixed.reads.bind fun _ => .pure

lemma reads_indexKey? : Reads w n (indexKey? expr) := by
  refine .onKind fun next => ?_
  split
  · exact .pure
  · exact (hexpr _).reads.bind fun _ => .pure

lemma opens_indexed (left : Facts) : Opens w n (indexed expr left) := by
  refine opens_require.bind fun _ => ?_
  refine (reads_indexKey? hexpr).bind fun key => .require fun _ => ?_
  exact steady_elementType.reads.bind fun _ => .pure

/-- With one token more than the parts are known to read, an operator is read. -/
lemma consumes_operator (power : Power) (left : Facts) :
    Consumes w (n + 1) (operator expr power left) := by
  refine .byKind rfl fun s hk => ?_
  split
  iterate 6 exact (opens_assignment hexpr left).runs hk
  · exact (opens_conditional hexpr left).runs hk
  iterate 2 exact (opens_logical hexpr power left).runs hk
  iterate 8 exact (opens_comparison hexpr power left).runs hk
  iterate 6 exact (opens_arithmetic hexpr power left).runs hk
  · exact (opens_instanceTest hexpr left).runs hk
  iterate 2 exact (opens_step left).runs hk
  · exact (opens_valueCall hexpr left).runs hk
  · exact (opens_indexed hexpr left).runs hk
  · exact (opens_memberAccess hexpr left).runs hk
  · exact consumes_reject s

/-! ### Expressions -/

/-- Every round of the loop over the operators consumes an operator. -/
lemma reads_operators (power : Power) (left : Facts) (hr : r ≤ n + 1) :
    Reads w r (operators expr power (r + 1) left) := by
  induction r generalizing left with
  | zero => exact fun s => .zero
  | succ r ih =>
      refine .onKind fun next => ?_
      cases next.power? with
      | none => exact .pure
      | some tighter =>
          dsimp only
          split
          · exact .pure
          · have hoperator := (consumes_operator hexpr tighter left).le hr
            exact (hoperator.bind_succ fun left => ih left (by omega)).reads

end Parts

/-- As deep as there are tokens, expressions are read. -/
lemma consumes_exprWithin (depth : Nat) (power : Power) :
    Consumes w depth (exprWithin depth power) := by
  induction depth generalizing power with
  | zero => exact fun s => .zero
  | succ depth ih =>
      refine (consumes_operand ih).bind fun left => .bound fun r hr => ?_
      exact reads_operators ih power left hr

/-- An expression that is read is not empty. -/
lemma consumes_expr (power : Power) : Consumes w n (Check.expr power) :=
  .bound fun r _ => (consumes_exprWithin (r + 1) power).le (Nat.le_succ r)

end ScriptCheck.Check
