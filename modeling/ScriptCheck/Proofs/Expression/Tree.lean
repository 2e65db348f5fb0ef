import Mathlib.Data.List.TakeWhile
import ScriptCheck.Analysis.Expr.Operator
import ScriptCheck.Proofs.Statement.Tree
import ScriptCheck.Token.Number
import ScriptCheck.Ty.Value

/-!
Trees of logical expressions.

An `Expression` is built from literals, arrays and variables with negation, the two connectives and
the two conditionals. Three functions go over the trees:

* `Expression.symbols`: the symbols that an expression is written with, each operand in parentheses;
* `Expression.eval`: its value, given the values of the variables;
* `Expression.truth`: what can be said of its truth without them.

The third is sound for the second (`Expression.knows_truth`), operator by operator: `Knows` relates
what is said to be true to what is, and each operator on what is said keeps it. Where there are no
variables, the truth is known (`Expression.isSome_truth`).
-/

namespace ScriptCheck

/-! ### Values -/

namespace Value

/-- Whether a value counts as true. These do not: false, null, zero, the empty text and the text of
a single zero, and the empty array. -/
def isTruthy : Value → Bool
  | null => false
  | boolean b => b
  | int n => n != 0
  | float bits => bits &&& 0x7fffffffffffffff != 0
  | string s => !(s.isEmpty || s == "0")
  | resource _ => true
  | array entries => !entries.isEmpty
  | object _ => true

/-- The key of an element that is added without one: after the greatest integer so far. -/
def nextKey (entries : List (Key × Value)) : Key :=
  .int (entries.foldl (fun next entry => match entry.1 with
    | .int n => max next (n + 1)
    | .string _ => next) 0)

lemma setEntry_ne_nil (entries : List (Key × Value)) (key : Key) (value : Value) :
    setEntry entries key value ≠ [] := by
  rw [setEntry]
  split
  case isTrue hany =>
    obtain ⟨entry, hmem, -⟩ := List.any_eq_true.mp hany
    simpa using List.ne_nil_of_mem hmem
  case isFalse => exact List.append_ne_nil_of_right_ne_nil _ (List.cons_ne_nil _ _)

end Value

namespace Literal

/-- The literal is not a number with a point. -/
def IsWhole : Literal → Prop
  | number digits => '.' ∉ digits.toList
  | _ => True

/-- The value of a literal; a whole number may be of any size. -/
def value : Literal → Value
  | number digits => .int (Number.ofDigits digits.toList)
  | text content => .string content
  | boolean value => .boolean value
  | null => .null

end Literal

/-- A literal without a point stands for a number other than zero if its digits do. -/
lemma Number.isNonzero_eq {digits : List Char} (h : '.' ∉ digits) :
    isNonzero digits = ((ofDigits digits : Int) != 0) := by
  have hne : ∀ c ∈ digits, (c != '.') = true := fun c hc =>
    bne_iff_ne.mpr fun heq => h (heq ▸ hc)
  have hspan : digits.span (· != '.') = (digits, []) := by
    rw [List.span_eq_takeWhile_dropWhile, List.takeWhile_eq_self_iff.mpr hne,
      List.dropWhile_eq_nil_iff.mpr hne]
  have hzero (bound : Nat) (hbound : 1 < bound) :
      decide (Nat.pow 10 0 < ofDigits digits * bound) = ((ofDigits digits : Int) != 0) := by
    rcases Nat.eq_zero_or_pos (ofDigits digits) with hzero | hpos
    · rw [hzero, Nat.zero_mul]
      rfl
    · have hlt : Nat.pow 10 0 < ofDigits digits * bound :=
        hbound.trans_le (Nat.le_mul_of_pos_left _ hpos)
      rw [decide_eq_true hlt]
      exact (bne_iff_ne.mpr (by omega)).symm
  have hpow (n : Nat) (hn : n ≠ 0) : 1 < Nat.pow 2 n := Nat.one_lt_two_pow hn
  simp only [isNonzero, hspan, List.drop_nil, List.append_nil, List.length_nil]
  apply hzero
  apply hpow
  decide

/-! ### Connectives -/

inductive Connective where
  | and
  | or
  deriving DecidableEq, Repr

namespace Connective

def symbol : Connective → Symbol
  | and => ⟨.and, "&&"⟩
  | or => ⟨.or, "||"⟩

/-- The connective on truth values. -/
def apply : Connective → Bool → Bool → Bool
  | and => (· && ·)
  | or => (· || ·)

/-- The connective on what is known of truth values. -/
def truth : Connective → Option Bool → Option Bool → Option Bool
  | and => Check.andTruth
  | or => Check.orTruth

end Connective

/-! ### Trees -/

/-- Symbols in parentheses. -/
def inParens (symbols : List Symbol) : List Symbol :=
  .fixed .openParen :: (symbols ++ [.fixed .closeParen])

/-- An expression. An array stands in brackets, or in parentheses after a word; its elements may
have keys. A conditional without its first branch has the condition in its place. -/
inductive Expression where
  | literal (l : Literal) (whole : l.IsWhole)
  | var (name : String)
  | array (isWord : Bool) (items : List (Option Expression × Expression))
  | group (inner : Expression)
  | not (operand : Expression)
  | logical (op : Connective) (left right : Expression)
  | conditional (condition yes no : Expression)
  | orElse (condition no : Expression)

namespace Expression

mutual

/-- The symbols that an expression is written with. -/
@[simp] def symbols : Expression → List Symbol
  | literal l _ => [l.symbol]
  | var name => [⟨.var, name⟩]
  | array false items => .fixed .openBracket :: (itemSymbols items ++ [.fixed .closeBracket])
  | array true items => .fixed .kwArray :: inParens (itemSymbols items)
  | group inner => inParens inner.symbols
  | not operand => .fixed .bang :: inParens operand.symbols
  | logical op left right => inParens left.symbols ++ (op.symbol :: inParens right.symbols)
  | conditional condition yes no =>
      inParens condition.symbols ++ (.fixed .question :: (inParens yes.symbols ++
        (.fixed .colon :: inParens no.symbols)))
  | orElse condition no =>
      inParens condition.symbols ++
        (.fixed .question :: .fixed .colon :: inParens no.symbols)

/-- The symbols of the elements of an array, with commas between them. -/
def itemSymbols : List (Option Expression × Expression) → List Symbol
  | [] => []
  | [(key, value)] => keySymbols key ++ value.symbols
  | (key, value) :: item :: rest =>
      keySymbols key ++ (value.symbols ++ (.fixed .comma :: itemSymbols (item :: rest)))

/-- The symbols of a key and the arrow after it. -/
def keySymbols : Option Expression → List Symbol
  | none => []
  | some key => key.symbols ++ [.fixed .doubleArrow]

end

mutual

/-- The variables of an expression. -/
@[simp] def vars : Expression → List String
  | literal _ _ => []
  | var name => [name]
  | array _ items => itemVars items
  | group inner => inner.vars
  | not operand => operand.vars
  | logical _ left right => left.vars ++ right.vars
  | conditional condition yes no => condition.vars ++ (yes.vars ++ no.vars)
  | orElse condition no => condition.vars ++ no.vars

def itemVars : List (Option Expression × Expression) → List String
  | [] => []
  | (key, value) :: rest => keyVars key ++ (value.vars ++ itemVars rest)

def keyVars : Option Expression → List String
  | none => []
  | some key => key.vars

end

mutual

/-- The value of an expression. How a value serves as the key of an array is left open. -/
@[simp] def eval (toKey : Value → Key) (values : String → Value) : Expression → Value
  | literal l _ => l.value
  | var name => values name
  | array _ items => .array (entriesFrom toKey values [] items)
  | group inner => inner.eval toKey values
  | not operand => .boolean !(operand.eval toKey values).isTruthy
  | logical op left right =>
      .boolean (op.apply (left.eval toKey values).isTruthy (right.eval toKey values).isTruthy)
  | conditional condition yes no =>
      if (condition.eval toKey values).isTruthy then yes.eval toKey values
      else no.eval toKey values
  | orElse condition no =>
      if (condition.eval toKey values).isTruthy then condition.eval toKey values
      else no.eval toKey values

/-- The entries of an array after those given. -/
def entriesFrom (toKey : Value → Key) (values : String → Value) (entries : List (Key × Value)) :
    List (Option Expression × Expression) → List (Key × Value)
  | [] => entries
  | (key, value) :: rest =>
      entriesFrom toKey values
        (Value.setEntry entries ((keyOf? toKey values key).getD (Value.nextKey entries))
          (value.eval toKey values)) rest

/-- The key that is given for an element. -/
def keyOf? (toKey : Value → Key) (values : String → Value) : Option Expression → Option Key
  | none => none
  | some key => some (toKey (key.eval toKey values))

end

/-- What can be said of the truth of an expression without the values of its variables. -/
@[simp] def truth : Expression → Option Bool
  | literal l _ => some l.value.isTruthy
  | var _ => none
  | array _ items => some !items.isEmpty
  | group inner => inner.truth
  | not operand => operand.truth.map (!·)
  | logical op left right => op.truth left.truth right.truth
  | conditional condition yes no =>
      condition.truth.bind fun holds => if holds then yes.truth else no.truth
  | orElse condition no =>
      condition.truth.bind fun holds => if holds then condition.truth else no.truth

/-! ### Soundness -/

/-- What is said of a truth value agrees with it. -/
def Knows (said : Option Bool) (actual : Bool) : Prop := ∀ b, said = some b → actual = b

lemma Knows.not {said : Option Bool} {actual : Bool} (h : Knows said actual) :
    Knows (said.map (!·)) !actual := by
  intro b hb
  obtain ⟨c, hc, rfl⟩ := Option.map_eq_some_iff.mp hb
  rw [h c hc]

lemma Knows.logical (op : Connective) {said said' : Option Bool} {actual actual' : Bool}
    (h : Knows said actual) (h' : Knows said' actual') :
    Knows (op.truth said said') (op.apply actual actual') := by
  cases op with
  | and =>
      intro b hb
      rw [Connective.truth, Check.andTruth.eq_def] at hb
      split at hb
      · cases hb
        exact (congrArg (· && actual') (h false rfl)).trans (Bool.false_and _)
      · cases hb
        exact (congrArg (actual && ·) (h' false rfl)).trans (Bool.and_false _)
      · cases hb
        exact congrArg₂ (· && ·) (h true rfl) (h' true rfl)
      · cases hb
  | or =>
      intro b hb
      rw [Connective.truth, Check.orTruth.eq_def] at hb
      split at hb
      · cases hb
        exact (congrArg (· || actual') (h true rfl)).trans (Bool.true_or _)
      · cases hb
        exact (congrArg (actual || ·) (h' true rfl)).trans (Bool.or_true _)
      · cases hb
        exact congrArg₂ (· || ·) (h false rfl) (h' false rfl)
      · cases hb

/-- A known condition selects a branch in what is said as in what is. -/
lemma Knows.select {said yes no : Option Bool} {actual : Bool} {v w : Value}
    (h : Knows said actual) (hyes : Knows yes v.isTruthy) (hno : Knows no w.isTruthy) :
    Knows (said.bind fun holds => if holds then yes else no)
      (if actual then v else w).isTruthy := by
  intro b hb
  obtain ⟨holds, hsaid, hb⟩ := Option.bind_eq_some_iff.mp hb
  rw [h holds hsaid]
  cases holds with
  | true => exact hyes b hb
  | false => exact hno b hb

/-- No entry is lost, so an array is empty only if nothing is written in it. -/
lemma entriesFrom_isEmpty (toKey : Value → Key) (values : String → Value) :
    ∀ (items : List (Option Expression × Expression)) (entries : List (Key × Value)),
      (entriesFrom toKey values entries items).isEmpty = (entries.isEmpty && items.isEmpty)
  | [], entries => by rw [entriesFrom, List.isEmpty_nil, Bool.and_true]
  | (key, value) :: rest, entries => by
      have hset (key : Key) (value : Value) :
          (Value.setEntry entries key value).isEmpty = false :=
        List.isEmpty_eq_false_iff.mpr (Value.setEntry_ne_nil entries key value)
      rw [entriesFrom, entriesFrom_isEmpty toKey values rest, hset, List.isEmpty_cons,
        Bool.false_and, Bool.and_false]

/-- **The truth that is told is right.** Whatever values the variables have, the truth that is known
without them is that of the value. -/
lemma knows_truth (toKey : Value → Key) (values : String → Value) :
    ∀ e : Expression, Knows e.truth (e.eval toKey values).isTruthy
  | literal l _ => fun _ hb => Option.some.inj hb
  | var name => nofun
  | array _ items => by
      rintro _ ⟨⟩
      rw [eval, Value.isTruthy, entriesFrom_isEmpty, List.isEmpty_nil, Bool.true_and]
  | group inner => knows_truth toKey values inner
  | not operand => (knows_truth toKey values operand).not
  | logical op left right =>
      (knows_truth toKey values left).logical op (knows_truth toKey values right)
  | conditional condition yes no =>
      (knows_truth toKey values condition).select (knows_truth toKey values yes)
        (knows_truth toKey values no)
  | orElse condition no =>
      (knows_truth toKey values condition).select (knows_truth toKey values condition)
        (knows_truth toKey values no)

/-! ### Completeness without variables -/

lemma isSome_logical (op : Connective) {said said' : Option Bool} (h : said.isSome)
    (h' : said'.isSome) : (op.truth said said').isSome := by
  obtain ⟨b, rfl⟩ := Option.isSome_iff_exists.mp h
  obtain ⟨b', rfl⟩ := Option.isSome_iff_exists.mp h'
  cases op <;> cases b <;> cases b' <;> rfl

lemma isSome_select {said yes no : Option Bool} (h : said.isSome) (hyes : yes.isSome)
    (hno : no.isSome) : (said.bind fun holds => if holds then yes else no).isSome := by
  obtain ⟨b, rfl⟩ := Option.isSome_iff_exists.mp h
  cases b with
  | true => exact hyes
  | false => exact hno

/-- Without variables the truth is known. -/
lemma isSome_truth : ∀ e : Expression, e.vars = [] → e.truth.isSome
  | literal _ _, _ => rfl
  | var _, h => absurd h (List.cons_ne_nil _ _)
  | array _ _, _ => rfl
  | group inner, h => isSome_truth inner h
  | not operand, h => by
      rw [truth, Option.isSome_map]
      exact isSome_truth operand h
  | logical op left right, h => by
      obtain ⟨hleft, hright⟩ := List.append_eq_nil_iff.mp h
      exact isSome_logical op (isSome_truth left hleft) (isSome_truth right hright)
  | conditional condition yes no, h => by
      obtain ⟨hcondition, h⟩ := List.append_eq_nil_iff.mp h
      obtain ⟨hyes, hno⟩ := List.append_eq_nil_iff.mp h
      exact isSome_select (isSome_truth condition hcondition) (isSome_truth yes hyes)
        (isSome_truth no hno)
  | orElse condition no, h => by
      obtain ⟨hcondition, hno⟩ := List.append_eq_nil_iff.mp h
      exact isSome_select (isSome_truth condition hcondition) (isSome_truth condition hcondition)
        (isSome_truth no hno)

end Expression

end ScriptCheck
