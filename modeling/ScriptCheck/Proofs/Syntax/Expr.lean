import ScriptCheck.Proofs.Analysis.Decl.Composition
import ScriptCheck.Proofs.Syntax.Mirror

/-!
The tokens that expressions take.

What an expression takes depends on its tokens alone, and on whether the part on the left can be
assigned to, which depends on tokens too (`Facts.isTarget`). Look-ups and checks rest on the cursor.
An expression takes simple tokens, and `class` after `::` (`mirrors_expr`).
-/

namespace ScriptCheck

open Cursor

/-- Something can be assigned to the expression. -/
def Facts.isTarget (facts : Facts) : Bool := facts.target.isSome

/-- Nothing can be assigned to the expression. -/
def Facts.IsValue (facts : Facts) : Prop := facts.isTarget = false

/-- The expression is something that can be assigned to. -/
def Facts.IsPlace (facts : Facts) : Prop := facts.isTarget = true

namespace Check

variable {w : Tracking} {P : Cursor → Prop}

/-! ### Look-ups and checks -/

attribute [grind ←] Rests.pure Rests.bind Rests.map Steady.rests RestsWith.after

@[grind ←]
lemma restsWith_value {facts : Facts} (h : facts.target = none) :
    RestsWith Facts.IsValue (pure facts) :=
  .pure (by rw [Facts.IsValue, Facts.isTarget, h]; rfl)

@[grind ←]
lemma rests_get : Rests (get : Check State) := peeks_get.rests

@[grind ←]
lemma rests_kind : Rests kind := peeks_kind.rests

@[grind ←]
lemma rests_positionOf {token : Token} : Rests (positionOf token) := peeks_positionOf.rests

@[grind ←]
lemma restsWith_place {facts : Facts} (h : facts.target.isSome = true) :
    RestsWith Facts.IsPlace (pure facts) :=
  .pure h

lemma mirrors_value {m n : Check Facts} {step : Cursor → Cursor → Prop}
    (hm : RestsWith Facts.IsValue m) (hn : RestsWith Facts.IsValue n) :
    MirrorsAt P w step Facts.isTarget m n :=
  .of_rests hm hn fun _ _ h h' => h.trans h'.symm

lemma mirrors_place {m n : Check Facts} {step : Cursor → Cursor → Prop}
    (hm : RestsWith Facts.IsPlace m) (hn : RestsWith Facts.IsPlace n) :
    MirrorsAt P w step Facts.isTarget m n :=
  .of_rests hm hn fun _ _ h h' => h.trans h'.symm

/-! ### Tokens of expressions -/

lemma expr_require {kind : Kind} (h : kind.isSimple = true) :
    MirrorsAt P w ExprStep id (require kind) (require kind) :=
  mirrors_require fun _ _ hkind => .simple (hkind ▸ h)

lemma expr_takes {kind : Kind} (h : kind.isSimple = true) :
    MirrorsAt P w ExprStep id (takes kind) (takes kind) :=
  mirrors_takes fun _ _ hkind => .simple (hkind ▸ h)

lemma expr_advance {kind : Kind} (h : kind.isSimple = true) :
    MirrorsAt (fun c => P c ∧ c.kind = kind) w ExprStep id advance advance :=
  mirrors_advance fun _ hc => .simple (hc.2 ▸ h)

/-- Only simple tokens stand where the property holds. -/
def SimpleAt (P : Cursor → Prop) : Prop := ∀ c, P c → c.kind.isSimple = true

lemma SimpleAt.ofKind {kind : Kind} (h : kind.isSimple = true) :
    SimpleAt fun c => P c ∧ c.kind = kind :=
  fun _ hc => hc.2 ▸ h

lemma SimpleAt.advance (hP : SimpleAt P) {f g : Token → Check Facts}
    (hf : ∀ token, Mirrors w ExprStep Facts.isTarget (f token) (g token)) :
    MirrorsAt P w ExprStep Facts.isTarget (Check.advance >>= f) (Check.advance >>= g) :=
  (mirrors_advance fun c hc => .simple (hP c hc)).bind_eq hf

/-! ### Literals and variables -/

lemma mirrors_literal (hP : SimpleAt P) :
    MirrorsAt P w ExprStep Facts.isTarget literal literal := by
  refine hP.advance fun token => ?_
  refine (mirrors_positionOf token).bind_eq fun p => ?_
  split
  iterate 5 exact mirrors_value (by grind) (by grind)
  · exact (refuses_rejectToken token).mirrors

lemma mirrors_variableUse (hP : SimpleAt P) :
    MirrorsAt P w ExprStep Facts.isTarget variableUse variableUse := by
  refine hP.advance fun token => ?_
  refine (mirrors_positionOf token).bind_eq fun p => ?_
  split
  · exact mirrors_value (by grind) (by grind)
  · exact mirrors_place (by grind) (by grind)

section

variable {e : ExprReader}
  (he : ∀ power, Mirrors w ExprStep Facts.isTarget (e power) (e power))
include he

/-! ### Calls and members -/

lemma mirrors_argumentsFrom (fuel : Nat) {args args' : List Facts}
    (hargs : args.isEmpty = args'.isEmpty) :
    Mirrors w ExprStep nothing (argumentsFrom e fuel args) (argumentsFrom e fuel args') := by
  induction fuel generalizing args args' with
  | zero => exact .spent
  | succ fuel ih =>
      refine .onKind fun here => ?_
      rw [hargs]
      split
      · exact .pure rfl
      · split
        case isTrue hcomma =>
          obtain ⟨hcomma, -⟩ := Bool.and_eq_true_iff.mp hcomma
          obtain rfl : here = .comma := beq_iff_eq.mp hcomma
          exact (expr_advance rfl).bind_eq fun _ => ih hargs
        case isFalse =>
          refine (he .comma).here.bind fun arg arg' _ => mirrors_kind.bind_eq fun next => ?_
          have hadded : (args ++ [arg]).isEmpty = (args' ++ [arg']).isEmpty := by
            cases args <;> cases args' <;> rfl
          split
          · exact ih hadded
          · exact refuses_reject.mirrors

lemma mirrors_arguments : Mirrors w ExprStep nothing (arguments e) (arguments e) := by
  refine (expr_require rfl).bind_eq fun _ => mirrors_bound.bind_eq fun fuel => ?_
  refine (mirrors_argumentsFrom he fuel rfl).after fun args args' => ?_
  exact (expr_require rfl).bind_eq fun _ => .pure rfl

/-- Nothing can be assigned to the result of a call. -/
lemma mirrors_methodCall (owner owner' : Option ClassId) (name : String) (p : Position) :
    Mirrors w ExprStep Facts.isTarget (methodCall e owner name p) (methodCall e owner' name p) := by
  refine (mirrors_arguments he).after fun args args' => ?_
  refine mirrors_value ?_ ?_
  all_goals
    split
    · grind
    · refine .after steady_classes.rests fun t => ?_
      split <;> grind

lemma mirrors_staticAccess {name : String} {p : Position} :
    Mirrors w ExprStep Facts.isTarget (staticAccess e name p) (staticAccess e name p) := by
  refine expr_require rfl |>.bindAt (Q := fun _ => FollowsColons) ?_
    fun _ _ _ => ?_
  · intro s token t _ hs hrun
    obtain ⟨hkind, rfl⟩ := require_ok hrun
    exact followsColons_advance hs hkind
  · refine .rest steady_classNamed?.rests steady_classNamed?.rests fun owner owner' => ?_
    extract_lets rest rest'
    -- whether the class is known or not, the same words are read after it
    have hrest : ∀ u u', MirrorsAt FollowsColons w ExprStep Facts.isTarget (rest u) (rest' u') := by
      intro u u'
      refine .onToken (fun _ c hc => .inl ⟨.doubleColon, by decide, hc⟩) fun token => ?_
      by_cases hkind : token.kind = .kwClass ∨ token.kind = .name ∨ token.kind = .var
      · refine .inl ⟨fun c hc htoken => ?_, (mirrors_positionOf token).bind_eq fun q => ?_⟩
        · obtain rfl := htoken
          rcases hkind with h | h | h
          · exact .access h hc
          · exact .simple (by rw [Cursor.kind, h]; rfl)
          · exact .simple (by rw [Cursor.kind, h]; rfl)
        · rcases hkind with h | h | h <;> rw [h]
          · exact .rest steady_typeOf.rests steady_typeOf.rests fun _ _ => .pure rfl
          · refine mirrors_kind.bind_eq fun next => ?_
            split
            · exact (mirrors_methodCall he owner owner' token.value q).bind fun _ _ h => .pure h
            · exact .rest steady_constantType.rests steady_constantType.rests
                fun _ _ => .pure rfl
          · exact .rest steady_propertyType.rests steady_propertyType.rests
              fun _ _ => .pure rfl
      · refine .inr (.peek peeks_positionOf fun q => ?_)
        split
        · exact absurd (.inl ‹_›) hkind
        · exact absurd (.inr (.inl ‹_›)) hkind
        · exact absurd (.inr (.inr ‹_›)) hkind
        · exact refuses_rejectToken token
    split <;> split
    · exact .rest (steady_report rfl rfl).rests (steady_report rfl rfl).rests hrest
    · exact .rest_left (steady_report rfl rfl).rests fun u => hrest u ()
    · exact .rest_right (steady_report rfl rfl).rests fun u => hrest () u
    · exact hrest () ()

lemma mirrors_memberAccess {object object' : Facts} :
    Mirrors w ExprStep Facts.isTarget (memberAccess e object) (memberAccess e object') := by
  refine (expr_require rfl).bindAt (Q := fun _ => AfterWord) (fun s token t _ hs hrun => ?_)
    fun _ _ _ =>
      .rest steady_objectClass.rests steady_objectClass.rests fun owner owner' => ?_
  · obtain ⟨hkind, rfl⟩ := require_ok hrun
    exact afterWord_advance hs (by rw [hkind]; decide)
  refine .onToken (fun _ _ => .inl) fun token => ?_
  by_cases hkind : token.kind = .name ∨ token.kind = .var
  · refine .inl ⟨fun c _ hc => .simple ?_, (mirrors_positionOf token).bind_eq fun p => ?_⟩
    · rw [Cursor.kind, hc]
      rcases hkind with h | h <;> rw [h] <;> rfl
    · rcases hkind with h | h <;> rw [h]
      · refine mirrors_kind.bind_eq fun next => ?_
        split
        · exact (mirrors_methodCall he owner owner' token.value p).bind fun _ _ h => .pure h
        · exact .rest steady_propertyType.rests steady_propertyType.rests
            fun _ _ => .pure rfl
      · exact .rest steady_mixed.rests steady_mixed.rests fun _ _ => .pure rfl
  · refine .inr (.peek peeks_positionOf fun p => ?_)
    split
    · exact absurd (Or.inl ‹_›) hkind
    · exact absurd (Or.inr ‹_›) hkind
    · exact refuses_rejectToken token

/-! ### Operands -/

lemma mirrors_nameUse (hP : SimpleAt P) :
    MirrorsAt P w ExprStep Facts.isTarget (nameUse e) (nameUse e) := by
  refine hP.advance fun token => ?_
  refine (mirrors_positionOf token).bind_eq fun p => mirrors_kind.bind_eq fun next => ?_
  split
  · exact mirrors_staticAccess he
  · split
    · exact (refuses_rejectToken token).mirrors
    · split
      · refine .rest rests_get rests_get fun s s' => (mirrors_arguments he).after fun args args' => ?_
        exact mirrors_value (by grind) (by grind)
      · exact mirrors_value (by grind) (by grind)

lemma mirrors_signed (hP : SimpleAt P) :
    MirrorsAt P w ExprStep Facts.isTarget (signed e) (signed e) := by
  refine hP.advance fun operator => ?_
  refine (mirrors_positionOf operator).bind_eq fun p => (he .unary).bind fun right right' hright => ?_
  have hsame : right.target.isNone = right'.target.isNone := by
    simpa [Facts.isTarget, ← Option.not_isSome] using hright
  extract_lets isStep
  rw [hsame]
  split
  · exact mirrors_value (by grind) (by grind)
  · split
    · exact (refuses_rejectToken operator).mirrors
    · exact mirrors_value (by grind) (by grind)

/-- A cast is told by a name and the closing parenthesis after it. -/
def IsCast (found : Option String) (c : Cursor) : Prop :=
  found.isSome = true → c.kind.isSimple = true ∧ c.advance.kind = .closeParen

omit he in
lemma isCast_of_castAhead? {s t : State} {found : Option String} (hs : s.cursor.IsProper)
    (hrun : castAhead? s = .ok found t) : IsCast found t.cursor := by
  obtain ⟨token, t₁, hcurrent, hrun⟩ := exists_of_bind hrun
  cases hcurrent
  dsimp only at hrun
  obtain ⟨next, t₂, hahead, hrun⟩ := exists_of_bind hrun
  cases hahead
  split at hrun
  case isFalse =>
    cases hrun
    intro h
    cases h
  case isTrue hcast =>
    cases hrun
    intro _
    simp only [Bool.and_eq_true, Bool.or_eq_true, beq_iff_eq] at hcast
    obtain ⟨hname | hname, hclose⟩ := hcast
    all_goals
      have hkind : s.cursor.kind.isSimple = true := by
        rw [Cursor.kind, hname]
        rfl
      exact ⟨hkind, (kind_advance hs (by simp [Cursor.kind, hname])).trans hclose⟩

omit he in
lemma mirrors_castAhead? : MirrorsAt P w ExprStep id castAhead? castAhead? := by
  refine mirrors_current.bind_eq fun token => ?_
  extract_lets isName
  refine (mirrors_kindAhead 1).bind_eq fun next => ?_
  split
  · exact .pure rfl
  · exact .pure rfl

lemma mirrors_grouped (hP : SimpleAt P) :
    MirrorsAt P w ExprStep Facts.isTarget (grouped e) (grouped e) := by
  refine hP.advance fun opening => ?_
  refine (mirrors_positionOf opening).bind_eq fun p => ?_
  refine mirrors_castAhead?.bindAt (Q := IsCast) (fun _ _ _ _ hs => isCast_of_castAhead? hs) ?_
  intro found found' hfound
  obtain rfl : found = found' := hfound
  cases found with
  | some descriptor =>
      refine (mirrors_advance fun c hc => .simple (hc rfl).1).bindAt
        (Q := fun _ c => c.kind = .closeParen) (fun s b t hcast _ hrun => ?_) fun _ _ _ => ?_
      · cases hrun
        exact (hcast rfl).2
      · refine (mirrors_advance fun c hc => .simple (hc ▸ rfl)).bind_eq fun _ => ?_
        refine (he .unary).bind fun operand operand' _ => ?_
        exact .rest steady_typeOf.rests steady_typeOf.rests fun _ _ => .pure rfl
  | none =>
      refine (he .lowest).here.bind fun inner inner' _ => (expr_require rfl).bind_eq fun _ => ?_
      exact .pure rfl

lemma mirrors_arrayItem : Mirrors w ExprStep nothing (arrayItem e) (arrayItem e) := by
  refine (he .comma).bind fun first first' _ => (expr_takes rfl).bind_eq fun isKeyed => ?_
  split
  · exact (he .comma).bind fun _ _ _ => .pure rfl
  · exact .pure rfl

lemma mirrors_arrayItems (close : Kind) (fuel : Nat) (items items' : List ArrayItem) :
    Mirrors w ExprStep nothing (arrayItems e close fuel items)
      (arrayItems e close fuel items') := by
  induction fuel generalizing items items' with
  | zero => exact .spent
  | succ fuel ih =>
      refine mirrors_kind.bind_eq fun next => ?_
      split
      · exact .pure rfl
      · refine (mirrors_arrayItem he).after fun item item' => (expr_takes rfl).bind_eq fun more => ?_
        split
        · exact ih _ _
        · refine mirrors_kind.bind_eq fun last => ?_
          split
          · exact .pure rfl
          · exact refuses_reject.mirrors

lemma mirrors_arrayLiteral (hP : SimpleAt P) :
    MirrorsAt P w ExprStep Facts.isTarget (arrayLiteral e) (arrayLiteral e) := by
  refine hP.advance fun opening => ?_
  refine (mirrors_positionOf opening).bind_eq fun p => ?_
  extract_lets isWord close rest
  have hrest : ∀ u, Mirrors w ExprStep Facts.isTarget (rest u) (rest u) := by
    intro u
    refine mirrors_bound.bind_eq fun fuel => ?_
    refine (mirrors_arrayItems he close fuel [] []).after fun items items' => ?_
    have hclose : close.isSimple = true := by
      simp only [close]
      split <;> rfl
    refine (expr_require hclose).bind_eq fun _ => ?_
    exact .rest steady_typeOf.rests steady_typeOf.rests fun _ _ => .pure rfl
  split
  · exact (expr_require rfl).bind_eq fun _ => hrest ()
  · exact hrest ()

lemma mirrors_instanceCreation :
    MirrorsAt (·.kind = .kwNew) w ExprStep Facts.isTarget (instanceCreation e)
      (instanceCreation e) := by
  refine (mirrors_advance fun c hc => .simple (by rw [hc]; rfl)).bindAt (Q := fun _ => AfterWord)
    (fun s _ t hkind hs hrun => ?_) fun word word' hword => ?_
  · cases hrun
    exact afterWord_advance hs (by rw [hkind]; decide)
  obtain rfl : word = word' := hword
  refine .onPeek (F := fun c => ⟨word.start, c.file⟩) (fun _ => rfl) fun start => ?_
  refine .onToken (fun _ c hc => .inl hc.1) fun token => ?_
  extract_lets rest
  have hrest : ∀ u, Mirrors w ExprStep Facts.isTarget (rest u) (rest u) := by
    intro u
    refine (mirrors_positionOf token).bind_eq fun p => mirrors_kind.bind_eq fun next => ?_
    extract_lets -underBinder made
    -- once the arguments are read, only the environment is asked
    have hmade : ∀ args, RestsWith Facts.IsValue (made args) := by
      intro args
      refine .after steady_classNamed?.rests fun owner => ?_
      split
      · grind
      · refine .after steady_classes.rests fun t => ?_
        extract_lets -underBinder called
        have hcalled : ∀ u, RestsWith Facts.IsValue (called u) := by
          intro u
          grind
        grind
    split
    · exact (mirrors_arguments he).after fun args args' => mirrors_value (hmade args) (hmade args')
    · exact mirrors_value (.after .pure hmade) (.after .pure hmade)
  by_cases hkind : token.kind = .name ∨ token.kind = .kwStatic
  · refine .inl ⟨fun c _ htoken => .simple ?_, ?_⟩
    · rw [Cursor.kind, htoken]
      rcases hkind with h | h <;> rw [h] <;> rfl
    · rw [if_pos (by simpa using hkind)]
      exact hrest ()
  · refine .inr ?_
    rw [if_neg (by simpa using hkind)]
    exact (refuses_rejectToken token).bind

lemma mirrors_operand : Mirrors w ExprStep Facts.isTarget (operand e) (operand e) := by
  refine .onKind fun k => ?_
  split
  iterate 5 exact mirrors_literal (.ofKind rfl)
  · exact mirrors_variableUse (.ofKind rfl)
  iterate 2 exact mirrors_nameUse he (.ofKind rfl)
  iterate 5 exact mirrors_signed he (.ofKind rfl)
  · exact mirrors_grouped he (.ofKind rfl)
  iterate 2 exact mirrors_arrayLiteral he (.ofKind rfl)
  · exact (mirrors_instanceCreation he).strengthen fun c hc => hc.2
  · exact refuses_reject.mirrors

/-! ### Operators -/

variable {left left' : Facts}

lemma mirrors_assignment (hleft : left.isTarget = left'.isTarget)
    (hP : SimpleAt P) :
    MirrorsAt P w ExprStep Facts.isTarget (assignment e left) (assignment e left') := by
  refine hP.advance fun operator => ?_
  refine (he .comma).bind fun right right' _ => ?_
  rw [Facts.isTarget, Facts.isTarget] at hleft
  cases htarget : left.target with
  | none =>
      rw [htarget, Option.isSome_none, eq_comm, Option.isSome_eq_false_iff, Option.isNone_iff_eq_none]
        at hleft
      rw [hleft]
      exact (Refuses.failAt (.misplaced _ _) peeks_positionOf).mirrors
  | some target =>
      rw [htarget, Option.isSome_some, eq_comm, Option.isSome_iff_exists] at hleft
      obtain ⟨target', htarget'⟩ := hleft
      rw [htarget']
      exact mirrors_value (by grind) (by grind)

lemma mirrors_conditional :
    Mirrors w ExprStep Facts.isTarget (conditional e left) (conditional e left') := by
  have hfirst : Mirrors w ExprStep nothing (firstBranch e left) (firstBranch e left') := by
    refine (expr_takes rfl).bind_eq fun isShort => ?_
    split
    · exact .pure rfl
    · exact (he .assignment).bind fun _ _ _ => (expr_require rfl).bind_eq fun _ => .pure rfl
  refine (expr_require rfl).bind_eq fun _ => hfirst.after fun yes yes' => ?_
  refine (he .assignment).bind fun no no' _ => ?_
  exact mirrors_value (by grind) (by grind)

lemma mirrors_logical (power : Power) (hP : SimpleAt P) :
    MirrorsAt P w ExprStep Facts.isTarget (logical e power left) (logical e power left') := by
  refine hP.advance fun operator => ?_
  exact (he power).bind fun right right' _ => mirrors_value (by grind) (by grind)

lemma mirrors_comparison (power : Power) (hP : SimpleAt P) :
    MirrorsAt P w ExprStep Facts.isTarget (comparison e power left) (comparison e power left') := by
  refine hP.advance fun operator => ?_
  exact (he power).bind fun right right' _ => mirrors_value (by grind) (by grind)

lemma mirrors_arithmetic (power : Power) (hP : SimpleAt P) :
    MirrorsAt P w ExprStep Facts.isTarget (arithmetic e power left) (arithmetic e power left') := by
  refine hP.advance fun operator => ?_
  exact (he power).bind fun right right' _ => mirrors_value (by grind) (by grind)

omit he in
lemma mirrors_step (hleft : left.isTarget = left'.isTarget)
    (hP : SimpleAt P) :
    MirrorsAt P w ExprStep Facts.isTarget (step left) (step left') := by
  refine hP.advance fun operator => ?_
  have hsame : left.target.isNone = left'.target.isNone := by
    simpa [Facts.isTarget, ← Option.not_isSome] using hleft
  rw [hsame]
  split
  · exact (refuses_rejectToken operator).mirrors
  · exact mirrors_value (by grind) (by grind)

lemma mirrors_instanceTest (hP : SimpleAt P) :
    MirrorsAt P w ExprStep Facts.isTarget (instanceTest e left) (instanceTest e left') := by
  have htested : Mirrors w ExprStep nothing (testedClass e) (testedClass e) := by
    refine .onKind fun k => ?_
    split
    iterate 2
      refine (expr_advance rfl).bind_eq fun token => ?_
      exact .resting (by grind) (by grind)
    exact (he .member).here.bind fun _ _ _ => .pure rfl
  refine hP.advance fun operator => ?_
  exact htested.after fun raises raises' => mirrors_value (by grind) (by grind)

lemma mirrors_valueCall : Mirrors w ExprStep Facts.isTarget (valueCall e left) (valueCall e left') :=
  (mirrors_arguments he).after fun _ _ => mirrors_value (by grind) (by grind)

lemma mirrors_indexed : Mirrors w ExprStep Facts.isTarget (indexed e left) (indexed e left') := by
  have hkey : Mirrors w ExprStep nothing (indexKey? e) (indexKey? e) := by
    refine mirrors_kind.bind_eq fun k => ?_
    split
    · exact .pure rfl
    · exact (he .lowest).bind fun _ _ _ => .pure rfl
  refine (expr_require rfl).bind_eq fun _ => hkey.after fun key key' => ?_
  exact (expr_require rfl).bind_eq fun _ => mirrors_place (by grind) (by grind)

lemma mirrors_operator {power : Power} (hleft : left.isTarget = left'.isTarget) :
    Mirrors w ExprStep Facts.isTarget (operator e power left) (operator e power left') := by
  refine .onKind fun k => ?_
  split
  iterate 6 exact mirrors_assignment he hleft (.ofKind rfl)
  · exact (mirrors_conditional he).here
  iterate 2 exact mirrors_logical he power (.ofKind rfl)
  iterate 8 exact mirrors_comparison he power (.ofKind rfl)
  iterate 6 exact mirrors_arithmetic he power (.ofKind rfl)
  · exact mirrors_instanceTest he (.ofKind rfl)
  iterate 2 exact mirrors_step hleft (.ofKind rfl)
  · exact (mirrors_valueCall he).here
  · exact (mirrors_indexed he).here
  · exact (mirrors_memberAccess he).here
  · exact refuses_reject.mirrors

lemma mirrors_operators (power : Power) (fuel : Nat) (hleft : left.isTarget = left'.isTarget) :
    Mirrors w ExprStep Facts.isTarget (operators e power fuel left)
      (operators e power fuel left') := by
  induction fuel generalizing left left' with
  | zero => exact .spent
  | succ fuel ih =>
      refine mirrors_kind.bind_eq fun k => ?_
      split
      · exact .pure hleft
      · split
        · exact .pure hleft
        · exact (mirrors_operator he hleft).bind fun _ _ h => ih h

end

lemma mirrors_exprWithin (depth : Nat) (power : Power) :
    Mirrors w ExprStep Facts.isTarget (exprWithin depth power) (exprWithin depth power) := by
  induction depth generalizing power with
  | zero => exact .spent
  | succ depth ih =>
      refine (mirrors_operand ih).bind fun left left' hleft => mirrors_bound.bind_eq fun fuel => ?_
      exact mirrors_operators ih power fuel hleft

/-- What an expression takes depends on its tokens alone. -/
lemma mirrors_expr (power : Power) :
    Mirrors w ExprStep Facts.isTarget (expr power) (expr power) :=
  mirrors_bound.bind_eq fun depth => mirrors_exprWithin depth power

end Check

end ScriptCheck
