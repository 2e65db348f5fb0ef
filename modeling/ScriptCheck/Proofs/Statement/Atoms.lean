import ScriptCheck.Proofs.Statement.Parses

/-!
Expressions and statements without statements inside, as they stand in trees.

Literals and conditions are operands with no operator after them (`parses_expr`). From these follow
the readers of the statements that have no statements inside: the empty one, the output of a
literal, jumps, returns and the end of the program.
-/

namespace ScriptCheck.Check

variable {Γ : Setting} {x y : Symbol} {P : Facts → Prop}

/-! ### Expressions -/

/-- What is known of a literal. -/
def IsOfLiteral (l : Literal) (facts : Facts) : Prop :=
  facts.raises = ∅ ∧ ∀ value, l = .boolean value → facts.truth = some value

lemma parses_operand_literal (expr : ExprReader) (l : Literal) :
    Parses Γ Γ (operand expr) [l.symbol] Anything (IsOfLiteral l) := by
  refine (spells_literal_operand expr l).parses.mono (fun _ h => h) ?_
  rintro facts ⟨hraises, htruth⟩
  refine ⟨hraises, ?_⟩
  rintro value rfl
  exact htruth

lemma thisClass?_run {s : State} (h : s.routine = none) : thisClass? s = .ok none s := by
  rw [thisClass?, bind_of_ok (get_run s), h]
  rfl

lemma parses_variableUse {name : String} (h : name ∈ Γ.declared) :
    Parses Γ Γ variableUse [⟨.var, name⟩] Anything
      fun facts => facts.truth = none ∧ facts.raises = ∅ := by
  refine .advance nofun fun token htoken => .peeks peeks_positionOf fun position => ?_
  have hvalue : token.value = name := congrArg Symbol.value htoken
  rw [hvalue]
  split
  case isTrue hthis =>
    refine .of_run (fun s hs => thisClass?_run hs.routine) ?_
    have hname : name = "this" := beq_iff_eq.mp hthis
    refine .silent (parses_report ⟨position, Or.inr (by rw [hname])⟩) fun _ _ => ?_
    exact .silent parses_mixed fun _ _ => .pure ⟨rfl, rfl⟩
  case isFalse =>
    intro s hs hxs hF
    obtain ⟨v, hv⟩ := Option.isSome_iff_exists.mp (hs.declared name h)
    rw [bind_of_ok (show variableNamed? name s = .ok (some v) s by rw [← hv]; rfl)]
    exact Parses.pure (F := Anything) ⟨rfl, rfl⟩ s hs hxs hF

/-- An operand with no operator after it is an expression. -/
lemma parses_expr (hoperand : ∀ e, Parses Γ Γ (operand e) [x] Anything P) {power : Power} :
    Parses Γ Γ (expr power) [x] (fun kind => kind.power? = none) P := by
  refine .bound fun depth _ => ?_
  refine (hoperand _).bind_last (fun _ _ => trivial) fun left hleft => ?_
  refine .bound fun fuel _ => ?_
  refine .kind (F := fun kind => kind.power? = none) (fun _ h => h) fun kind hkind => ?_
  rw [hkind]
  exact .pure hleft

/-- What is known of a condition. -/
def IsOfCondition (c : Condition) (facts : Facts) : Prop :=
  facts.truth = c.truth ∧ facts.raises = ∅

lemma parses_operand_condition {c : Condition} (h : c.IsDeclared Γ) (expr : ExprReader) :
    Parses Γ Γ (operand expr) [c.symbol] Anything (IsOfCondition c) := by
  cases c with
  | holds =>
      exact (parses_operand_literal expr (.boolean true)).mono (fun _ h => h)
        fun facts hfacts => ⟨hfacts.2 true rfl, hfacts.1⟩
  | fails =>
      exact (parses_operand_literal expr (.boolean false)).mono (fun _ h => h)
        fun facts hfacts => ⟨hfacts.2 false rfl, hfacts.1⟩
  | var name => exact .first (parses_variableUse h)

lemma parses_condition {c : Condition} (h : c.IsDeclared Γ) :
    Parses Γ Γ condition c.inParens Anything (IsOfCondition c) := by
  refine .require rfl nofun fun _ _ => ?_
  refine (parses_expr (parses_operand_condition h)).bind rfl fun facts hfacts => ?_
  exact .require rfl nofun fun _ _ => .pure hfacts

/-- A single expression before the token that ends a list of expressions. -/
lemma parses_exprs_single {close : Kind} (hoperand : ∀ e, Parses Γ Γ (operand e) [x] Anything P)
    (hx : x.kind ≠ close) (hy : y.kind = close) (hclose : close ∈ [.semicolon, .closeParen]) :
    Parses Γ Γ (exprs close) [x, y] Anything fun found => ∃ facts, found = [facts] ∧ P facts := by
  have hends : close.power? = none ∧ close ≠ .comma ∧ close ≠ .eof := by
    revert hclose
    cases close <;> simp <;> decide
  refine .bound fun fuel _ => ?_
  have hlist : Parses Γ Γ (exprsFrom close (fuel + 1)) [x] (· = close)
      fun found => ∃ facts, found = [facts] ∧ P facts := by
    refine .kind (F := (· ≠ close)) hx fun kind hkind => ?_
    rw [if_neg (by simpa using hkind)]
    refine (parses_expr hoperand).bind_last ?_ fun facts hfacts => ?_
    · rintro kind rfl
      exact hends.1
    · refine .takes_not ?_ (.pure ⟨facts, rfl, hfacts⟩)
      rintro kind rfl
      exact hends.2.1
  refine hlist.bind hy fun found hfound => ?_
  exact .require hy hends.2.2 fun _ _ => .pure hfound

lemma parses_exprs_none {close : Kind} (hy : y.kind = close) (hclose : close ≠ .eof) :
    Parses Γ Γ (exprs close) [y] Anything (· = []) := by
  refine .bound fun fuel _ => ?_
  have hlist : Parses Γ Γ (exprsFrom close (fuel + 1)) [] (· = close) (· = []) := by
    refine .kind (F := (· = close)) (fun _ h => h) fun kind hkind => ?_
    rw [if_pos (by simpa using hkind)]
    exact .pure rfl
  refine hlist.bind hy fun found hfound => ?_
  exact .require hy hclose fun _ _ => .pure hfound

/-! ### Statements without statements inside -/

/-- Exits with no more exceptions are the same. -/
lemma alsoRaising_empty (e : Exits) : e.alsoRaising ∅ = e := by
  rw [Exits.alsoRaising, NatSet.union_empty]

lemma parses_emptyStatement :
    Parses Γ Γ emptyStatement [.fixed .semicolon] Anything (· = .passing) :=
  .require rfl nofun fun _ _ => .pure rfl

lemma parses_echo (l : Literal) : Parses Γ Γ echo [.fixed .kwEcho, l.symbol, .fixed .semicolon]
    Anything (· = .passing) := by
  refine .require rfl nofun fun _ _ => ?_
  have hne : l.symbol.kind ≠ .semicolon := by
    cases l with
    | boolean value => cases value <;> decide
    | _ => nofun
  refine (parses_exprs_single (parses_operand_literal · l) hne rfl (by decide)).bind_last
    (fun _ _ => trivial) fun found hfound => ?_
  obtain ⟨facts, rfl, hfacts⟩ := hfound
  refine .pure ?_
  have hraises : allRaises [facts] = ∅ := by
    rw [allRaises, List.foldr_cons, List.foldr_nil, hfacts.1, NatSet.union_empty]
  rw [hraises, alsoRaising_empty]

/-- A level is read back from its decimal digits. -/
lemma level?_toString {n : Nat} (hpos : 1 ≤ n) (hlt : n < 2 ^ 32) :
    Number.level? (toString n).toList = some n := by
  have hdigits : (toString n).toList = Nat.toDigits 10 n := Nat.toList_repr
  have hvalue : Number.ofDigits (Nat.toDigits 10 n) = n := Nat.ofDigitChars_ten_toDigits
  have hpoint : (Nat.toDigits 10 n).contains '.' = false := by
    by_contra h
    have hmem : '.' ∈ Nat.toDigits 10 n := by simpa using h
    exact absurd (Nat.isDigit_of_mem_toDigits (by decide) (by decide) hmem) (by decide)
  rw [Number.level?, hdigits, hvalue, hpoint, if_neg]
  simp
  omega

lemma parses_jumpLevel {keyword : String} {level : Option Nat} (hpos : 1 ≤ level.getD 1)
    (hlt : level.getD 1 < 2 ^ 32) :
    Parses Γ Γ (jumpLevel keyword) (Jump.levelSymbols level) (· = .semicolon)
      (· = level.getD 1) := by
  cases level with
  | none =>
      refine .kind (F := (· = .semicolon)) (fun _ h => h) fun kind hkind => ?_
      rw [hkind, if_neg (by decide)]
      exact .pure rfl
  | some n =>
      refine .kind (F := (· = .number)) rfl fun kind hkind => ?_
      rw [hkind, if_pos (by decide)]
      refine .advance nofun fun token htoken => ?_
      have hvalue : token.value = toString n := congrArg Symbol.value htoken
      have hlevel : Number.level? (toString n).toList = some n := level?_toString hpos hlt
      rw [hvalue, hlevel]
      exact .pure rfl

lemma parses_jump (way : Jump) {level : Option Nat} (hpos : 1 ≤ level.getD 1)
    (hdepth : level.getD 1 ≤ Γ.depth) (hlt : level.getD 1 < 2 ^ 32) :
    Parses Γ Γ (jump way.exits)
      (.fixed way.kind :: (Jump.levelSymbols level ++ [.fixed .semicolon])) Anything
      (· = way.exits (level.getD 1)) := by
  have hne : way.kind ≠ .eof := by cases way <;> decide
  refine .advance hne fun keyword _ => ?_
  refine (parses_jumpLevel hpos hlt).bind rfl fun n hn => ?_
  refine .require rfl nofun fun _ _ => .get fun s hs => ?_
  extract_lets depth
  have hdepth' : depth = Γ.depth := hs.depth
  have hmin : min n (max depth 1) = level.getD 1 := by omega
  rw [if_neg (by omega)]
  exact .pure (congrArg way.exits hmin)

lemma parses_returnStatement :
    Parses Γ Γ returnStatement [.fixed .kwReturn, .fixed .semicolon] Anything (· = .stopping) := by
  refine .require rfl nofun fun keyword _ => ?_
  have hvalue : Parses Γ Γ returnedValue? [] (· = .semicolon) (· = none) := by
    refine .kind (F := (· = .semicolon)) (fun _ h => h) fun kind hkind => ?_
    rw [hkind, if_pos (by decide)]
    exact .pure rfl
  refine hvalue.bind rfl fun value hnone => ?_
  refine .require rfl nofun fun _ _ => .peeks peeks_positionOf fun position => ?_
  have hcheck : ∀ s, Γ.Fits s → checkReturn value position s = .ok () s := by
    intro s hs
    rw [checkReturn, bind_of_ok (get_run s), hs.routine]
    rfl
  refine .of_run hcheck (.pure ?_)
  rw [hnone]
  exact alsoRaising_empty _

lemma parses_exitStatement :
    Parses Γ Γ exitStatement [.fixed .kwExit, .fixed .semicolon] Anything (· = .stopping) := by
  refine .require rfl nofun fun _ _ => .takes_not nofun ?_
  exact .require rfl nofun fun _ _ => .pure (alsoRaising_empty _)

end ScriptCheck.Check
