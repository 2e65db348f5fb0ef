import ScriptCheck.Proofs.Expression.Spells
import ScriptCheck.Proofs.Expression.Tree
import ScriptCheck.Proofs.Syntax.Path

/-!
Trees of expressions are read back.

A tree is printed with its operands in parentheses. The reader of expressions finds it again: it
succeeds on the symbols of every tree, reads exactly these, and what it finds out about the truth is
the truth of the tree (`spellsTree_exprWithin`). The induction is on the depth of the reader, which
is at least the number of symbols. A tree whose operator is no looser than a power may be read with
that power (`Expression.rank`), so that the operands, which are in parentheses, are read with any.

With the soundness of the truth of trees, `static_truth_sound` is about the reader.
-/

namespace ScriptCheck

/-- The rank of the operator of an expression; it is above all powers if there is none to be
read after an operand. -/
def Expression.rank : Expression → Nat
  | .logical _ _ _ => Power.logical.rank
  | .conditional _ _ _ => Power.ternary.rank
  | .orElse _ _ => Power.ternary.rank
  | _ => Power.primary.rank + 1

lemma Expression.ternary_le_rank (e : Expression) : Power.ternary.rank ≤ e.rank := by
  cases e <;> simp [rank, Power.rank]

lemma Power.rank_le_primary (power : Power) : power.rank ≤ primary.rank := by
  cases power <;> decide

/-- An expression starts with an operand that is no name, or with the word for an array and a
parenthesis. -/
lemma Expression.symbols_eq_cons (e : Expression) :
    (∃ x xs, e.symbols = x :: xs ∧ x.kind.startsOperand = true ∧ x.kind ≠ .name ∧
      x.kind ≠ .kwArray) ∨
    ∃ xs, e.symbols = .fixed .kwArray :: .fixed .openParen :: xs := by
  cases e with
  | literal l _ =>
      refine Or.inl ⟨_, _, symbols.eq_1 .., ?_⟩
      cases l with
      | boolean value => cases value <;> exact ⟨rfl, nofun, nofun⟩
      | _ => exact ⟨rfl, nofun, nofun⟩
  | var name => exact Or.inl ⟨_, _, symbols.eq_2 .., rfl, nofun, nofun⟩
  | array isWord items =>
      cases isWord with
      | false => exact Or.inl ⟨_, _, symbols.eq_3 .., rfl, nofun, nofun⟩
      | true => exact Or.inr ⟨_, symbols.eq_4 ..⟩
  | group inner => exact Or.inl ⟨_, _, symbols.eq_5 .., rfl, nofun, nofun⟩
  | not operand => exact Or.inl ⟨_, _, symbols.eq_6 .., rfl, nofun, nofun⟩
  | logical op left right => exact Or.inl ⟨_, _, symbols.eq_7 .., rfl, nofun, nofun⟩
  | conditional condition yes no => exact Or.inl ⟨_, _, symbols.eq_8 .., rfl, nofun, nofun⟩
  | orElse condition no => exact Or.inl ⟨_, _, symbols.eq_9 .., rfl, nofun, nofun⟩

/-- The kind of the token after the one at hand. -/
lemma Cursor.kindAhead_one {c : Cursor} {x y : Symbol} {ys : List Symbol}
    (h : x :: y :: ys <+: c.symbols) : c.kindAhead 1 = y.kind := by
  obtain ⟨rest, hrest⟩ := h
  have hget : c.symbols[1]? = some y := by rw [← hrest]; rfl
  have htoken : c.tokens[c.index + 1]?.map Token.symbol = some y := by
    simpa [symbols, Cursor.rest] using hget
  obtain ⟨token, hat, rfl⟩ := Option.map_eq_some_iff.mp htoken
  rw [kindAhead, ahead?, hat]
  rfl

namespace Check

variable {names : List String} {expr : ExprReader} {e : Expression} {x : Symbol}
  {xs ys : List Symbol} {F G : Kind → Prop} {P Q : Facts → Prop} {truth : Option Bool}

/-- This is what is known of the truth of an expression. -/
def HasTruth (truth : Option Bool) (facts : Facts) : Prop := facts.truth = truth

/-- No operator goes on. -/
def Ends (kind : Kind) : Prop := kind.power? = none

/-! ### Operands of one token -/

lemma spells_operand_literal {l : Literal} (h : l.IsWhole) :
    Spells names (operand expr) [l.symbol] Anything (HasTruth (some l.value.isTruthy)) := by
  have htruth : l.countsAsTrue = l.value.isTruthy := by
    cases l with
    | number digits =>
        rw [Literal.countsAsTrue, Number.isNonzero_eq h]
        rfl
    | _ => rfl
  exact (spells_literal_operand expr l).mono (fun _ h => h) fun _ hfacts => htruth ▸ hfacts.2

lemma spells_variableUse {name : String} (h : name ∈ names) (hthis : name ≠ "this") :
    Spells names variableUse [⟨.var, name⟩] Anything (HasTruth none) := by
  refine .advance nofun fun token htoken => .look peeks_positionOf fun position => ?_
  have hvalue : token.value = name := congrArg Symbol.value htoken
  rw [hvalue, if_neg (by simpa using hthis)]
  intro s hs hxs hF
  obtain ⟨v, hv⟩ := Option.isSome_iff_exists.mp (hs name h)
  rw [bind_of_ok (show variableNamed? name s = .ok (some v) s by rw [← hv]; rfl)]
  refine Spells.pure (F := Anything) (P := HasTruth none) ?_ s hs hxs hF
  rfl

/-! ### Operators -/

/-- A token of the kind ends an expression that is read with the power. -/
def Stops (power : Power) (kind : Kind) : Prop :=
  ∀ tighter, kind.power? = some tighter → tighter.rank ≤ power.rank

lemma Ends.stops {kind : Kind} (h : Ends kind) (power : Power) : Stops power kind :=
  fun _ hpower => absurd (h.symm.trans hpower) (Option.some_ne_none _).symm

/-- Where no tighter operator goes on, the operand is all. -/
lemma spells_operators_done {power : Power} {left : Facts} (hleft : P left) (fuel : Nat) :
    Spells names (operators expr power (fuel + 1) left) [] (Stops power) P := by
  refine .kind (F := Stops power) (fun _ h => h) fun kind hkind => ?_
  split
  · exact .pure hleft
  next tighter hpower =>
    rw [if_pos (hkind tighter hpower)]
    exact .pure hleft

/-- A tighter operator and what belongs to it, and what follows. -/
lemma spells_operators_step {power tighter : Power} {left : Facts} {fuel : Nat}
    (hx : x.kind.power? = some tighter) (hlt : power.rank < tighter.rank)
    (hoperator : Spells names (operator expr tighter left) (x :: xs) F P) (hnext : Leads F G ys)
    (hrest : ∀ facts, P facts → Spells names (operators expr power fuel facts) ys G Q) :
    Spells names (operators expr power (fuel + 1) left) (x :: (xs ++ ys)) G Q := by
  refine .first ?_
  rw [hx]
  change Spells names (if tighter.rank ≤ power.rank then pure left else _) _ G Q
  rw [if_neg hlt.not_ge]
  exact (hoperator.bind hnext hrest : Spells names _ ((x :: xs) ++ ys) G Q)

/-- An expression of one operand. -/
lemma spells_exprWithin_operand {depth : Nat} {power : Power}
    (h : Spells names (operand (exprWithin depth)) xs F P) (hF : ∀ kind, G kind → F kind)
    (hG : ∀ kind, G kind → Stops power kind) :
    Spells names (exprWithin (depth + 1) power) xs G P := by
  refine h.bind_last hF fun left hleft => ?_
  exact .bound fun fuel _ => (spells_operators_done hleft fuel).mono hG fun _ h => h

/-- An expression of an operand and an operator. -/
lemma spells_exprWithin_operator {depth : Nat} {power tighter : Power}
    (hx : x.kind.power? = some tighter) (hlt : power.rank < tighter.rank)
    (hoperand : Spells names (operand (exprWithin depth)) xs Anything P)
    (hoperator : ∀ left, P left →
      Spells names (operator (exprWithin depth) tighter left) (x :: ys) Ends Q) :
    Spells names (exprWithin (depth + 1) power) (xs ++ (x :: ys)) Ends Q := by
  refine hoperand.bind trivial fun left hleft => .bound fun fuel hfuel => ?_
  obtain ⟨fuel, rfl⟩ : ∃ n, fuel = n + 1 := Nat.exists_eq_add_one.mpr (by simp at hfuel; omega)
  rw [← List.append_nil ys]
  exact spells_operators_step hx hlt (hoperator left hleft) (fun _ h => h) fun facts hfacts =>
    (spells_operators_done hfacts fuel).mono (fun _ h => h.stops power) fun _ h => h

lemma spells_logical (op : Connective) {left : Facts}
    (h : Spells names (expr .logical) xs F (HasTruth truth)) :
    Spells names (operator expr .logical left) (op.symbol :: xs) F
      (HasTruth (op.truth left.truth truth)) := by
  have hread : Spells names (logical expr .logical left) (op.symbol :: xs) F
      (HasTruth (op.truth left.truth truth)) := by
    refine .advance (by cases op <;> nofun) fun token htoken => ?_
    refine h.bind_last (fun _ h => h) fun right hright => .typed _ fun _ => .pure ?_
    have hkind : token.kind = op.symbol.kind := congrArg Symbol.kind htoken
    rw [HasTruth, hkind, show right.truth = truth from hright]
    cases op <;> rfl
  cases op <;> exact .first hread

/-! ### Trees -/

/-- The reader reads an expression, with every power that is looser than its operator. -/
def SpellsTree (names : List String) (expr : ExprReader) (e : Expression) : Prop :=
  ∀ power : Power, power.rank < e.rank →
    Spells names (expr power) e.symbols Ends (HasTruth e.truth)

/-- An expression in parentheses is read with every power. -/
lemma SpellsTree.group (h : SpellsTree names expr (.group e)) (power : Power) :
    Spells names (expr power) (inParens e.symbols) Ends (HasTruth e.truth) := by
  have hspells := h power (Nat.lt_succ_of_le power.rank_le_primary)
  rwa [Expression.symbols, Expression.truth] at hspells

lemma SpellsTree.lowest (h : SpellsTree names expr e) :
    Spells names (expr .lowest) e.symbols Ends (HasTruth e.truth) :=
  h .lowest (Nat.lt_of_lt_of_le (by decide) e.ternary_le_rank)

lemma SpellsTree.comma (h : SpellsTree names expr e) :
    Spells names (expr .comma) e.symbols Ends (HasTruth e.truth) :=
  h .comma (Nat.lt_of_lt_of_le (by decide) e.ternary_le_rank)

/-- Parentheses are not those of a cast before anything but a type. -/
lemma castAhead?_run {s : State}
    (h : (s.cursor.kind ≠ .name ∧ s.cursor.kind ≠ .kwArray) ∨ s.cursor.kindAhead 1 ≠ .closeParen) :
    castAhead? s = .ok none s := by
  have hno : ((s.cursor.kind == .name || s.cursor.kind == .kwArray) &&
      s.cursor.kindAhead 1 == .closeParen) = false := by
    obtain ⟨hname, harray⟩ | hnext := h
    · rw [beq_false_of_ne hname, beq_false_of_ne harray]
      rfl
    · rw [beq_false_of_ne hnext, Bool.and_false]
  change (if ((s.cursor.kind == .name || s.cursor.kind == .kwArray) &&
    s.cursor.kindAhead 1 == .closeParen) = true then (pure _ : Check _) else pure none) s = _
  rw [hno]
  rfl

/-- An expression in parentheses that is no cast. -/
lemma spells_grouped
    (hcast : ∀ s : State, xs ++ [.fixed .closeParen] <+: s.cursor.symbols →
      castAhead? s = .ok none s)
    (h : Spells names (expr .lowest) xs Ends (HasTruth truth)) :
    Spells names (operand expr) (inParens xs) Anything (HasTruth truth) := by
  refine .first (.advance nofun fun opening _ => .look peeks_positionOf fun position => ?_)
  refine .of_run hcast ?_
  refine h.bind rfl fun inner hinner => ?_
  exact .require rfl nofun fun _ => .pure hinner

lemma SpellsTree.spells_grouped (h : SpellsTree names expr e) :
    Spells names (operand expr) (inParens e.symbols) Anything (HasTruth e.truth) := by
  refine Check.spells_grouped (fun s hs => castAhead?_run ?_) h.lowest
  obtain ⟨x, xs, heq, -, hname, harray⟩ | ⟨xs, heq⟩ := e.symbols_eq_cons
  · rw [heq] at hs
    rw [Cursor.kind_eq hs]
    exact Or.inl ⟨hname, harray⟩
  · rw [heq] at hs
    rw [Cursor.kindAhead_one hs]
    exact Or.inr nofun

lemma spells_not (h : SpellsTree names expr (.group e)) :
    Spells names (operand expr) (.fixed .bang :: inParens e.symbols) Ends
      (HasTruth (e.truth.map (!·))) := by
  refine .first (.advance nofun fun operator hoperator => .look peeks_positionOf fun _ => ?_)
  have hkind : operator.kind = .bang := congrArg Symbol.kind hoperator
  rw [hkind]
  refine (h.group _).bind_last (fun _ h => h) fun right hright => ?_
  exact .typed _ fun _ => .pure (congrArg (Option.map (!·)) hright)

/-- The first branch of a conditional, with the colon. -/
lemma spells_firstBranch (h : SpellsTree names expr (.group e)) (condition : Facts) :
    Spells names (firstBranch expr condition) (inParens e.symbols ++ [.fixed .colon]) Anything
      (HasTruth e.truth) := by
  refine .takes_not nofun ?_
  refine (h.group _).bind rfl fun branch hbranch => ?_
  exact .require rfl nofun fun _ => .pure hbranch

lemma spells_firstBranch_missing (condition : Facts) :
    Spells names (firstBranch expr condition) [.fixed .colon] Anything
      (HasTruth condition.truth) :=
  .takes rfl nofun (.pure rfl)

lemma spells_unify {a b : Ty} : Spells names (unify a b) [] Anything fun _ => True := by
  rw [unify]
  split_ifs
  · exact .pure trivial
  · exact .pure trivial
  · exact .pure trivial
  · exact spells_typeOf

/-- A conditional, given its first branch. -/
lemma spells_conditional {condition : Facts} {yes : Option Bool}
    (hyes : Spells names (firstBranch expr condition) xs Anything (HasTruth yes))
    (hno : SpellsTree names expr (.group e)) :
    Spells names (operator expr .ternary condition)
      (.fixed .question :: (xs ++ inParens e.symbols)) Ends
      (HasTruth (condition.truth.bind fun holds => if holds then yes else e.truth)) := by
  refine .first (.require rfl nofun fun _ => ?_)
  refine hyes.bind trivial fun branch hbranch => ?_
  refine (hno.group _).bind_last (fun _ h => h) fun last hlast => ?_
  rw [← show branch.truth = yes from hbranch, ← show last.truth = e.truth from hlast]
  split
  · exact .pure rfl
  · exact .pure rfl
  · exact spells_unify.bind_last (fun _ _ => trivial) fun _ _ => .pure rfl

/-! ### Arrays -/

/-- The reader reads the elements of an array. -/
def SpellsItems (names : List String) (expr : ExprReader)
    (items : List (Option Expression × Expression)) : Prop :=
  ∀ item ∈ items, SpellsTree names expr item.2 ∧ ∀ key ∈ item.1, SpellsTree names expr key

lemma spells_arrayItem {key : Option Expression} {value : Expression}
    (hvalue : SpellsTree names expr value) (hkey : ∀ k ∈ key, SpellsTree names expr k) :
    Spells names (arrayItem expr) (Expression.keySymbols key ++ value.symbols)
      (fun kind => Ends kind ∧ kind ≠ .doubleArrow) fun _ => True := by
  cases key with
  | none =>
      refine hvalue.comma.bind_last (fun _ h => h.1) fun first _ => ?_
      exact .takes_not (fun _ h => h.2) (.pure trivial)
  | some key =>
      rw [Expression.keySymbols, List.append_assoc]
      refine (hkey key rfl).comma.bind rfl fun first _ => .takes rfl nofun ?_
      exact hvalue.comma.bind_last (fun _ h => h.1) fun last _ => .pure trivial

lemma leads_itemSymbols {item : Option Expression × Expression}
    {rest : List (Option Expression × Expression)}
    (h : ∀ kind : Kind, kind.startsOperand = true → F kind) :
    Leads F G (Expression.itemSymbols (item :: rest)) := by
  have hleads (e : Expression) (ys : List Symbol) : Leads F G (e.symbols ++ ys) := by
    obtain ⟨x, xs, heq, hx, -⟩ | ⟨xs, heq⟩ := e.symbols_eq_cons
    · rw [heq]
      exact h _ hx
    · rw [heq]
      exact h .kwArray rfl
  obtain ⟨key, value⟩ := item
  cases key with
  | none =>
      cases rest with
      | nil => simpa [Expression.itemSymbols, Expression.keySymbols] using hleads value []
      | cons item rest => exact hleads value _
  | some key =>
      cases rest with
      | nil =>
          rw [Expression.itemSymbols, Expression.keySymbols, List.append_assoc]
          exact hleads key _
      | cons item rest =>
          rw [Expression.itemSymbols, Expression.keySymbols, List.append_assoc]
          exact hleads key _

/-- As many elements are found as are written. -/
lemma spells_arrayItems {close : Kind} (hclose : close = .closeParen ∨ close = .closeBracket) :
    ∀ {items : List (Option Expression × Expression)} {found : List ArrayItem} {fuel : Nat},
      SpellsItems names expr items → (Expression.itemSymbols items).length ≤ fuel →
      Spells names (arrayItems expr close (fuel + 1) found) (Expression.itemSymbols items)
        (· = close) fun all => all.length = found.length + items.length
  | [], found, fuel, _, _ => by
      refine .kind (F := (· = close)) (fun _ h => h) fun kind hkind => ?_
      rw [hkind, if_pos (beq_self_eq_true close)]
      exact .pure rfl
  | (key, value) :: rest, found, fuel, hitems, hfuel => by
      obtain ⟨hvalue, hkey⟩ := hitems (key, value) List.mem_cons_self
      refine .kind (F := (· ≠ close)) (leads_itemSymbols ?_) fun kind hkind => ?_
      · rintro kind hstarts rfl
        obtain rfl | rfl := hclose <;> cases hstarts
      rw [if_neg (by simpa using hkind)]
      cases rest with
      | nil =>
          refine (spells_arrayItem hvalue hkey).bind_last ?_ fun item _ => ?_
          · rintro kind rfl
            obtain rfl | rfl := hclose <;> exact ⟨rfl, nofun⟩
          refine .takes_not ?_ (.kind (F := (· = close)) (fun _ h => h) fun kind hkind => ?_)
          · rintro kind rfl
            obtain rfl | rfl := hclose <;> nofun
          rw [hkind, if_pos (beq_self_eq_true close)]
          exact .pure List.length_append
      | cons next rest =>
          rw [Expression.itemSymbols, ← List.append_assoc] at hfuel ⊢
          refine (spells_arrayItem hvalue hkey).bind ⟨rfl, nofun⟩ fun item _ => ?_
          rw [List.length_append, List.length_cons] at hfuel
          obtain ⟨fuel, rfl⟩ : ∃ n, fuel = n + 1 := Nat.exists_eq_add_one.mpr (by omega)
          refine .takes rfl nofun ?_
          have hrest : SpellsItems names expr (next :: rest) := fun item hitem =>
            hitems item (List.mem_cons_of_mem _ hitem)
          refine (spells_arrayItems hclose hrest (by omega)).mono (fun _ h => h) fun all hall => ?_
          simp only [List.length_append, List.length_cons, List.length_nil] at hall ⊢
          omega

/-- The elements up to the closing token, and what is done with them. -/
lemma spells_items {close : Kind} (hclose : close = .closeParen ∨ close = .closeBracket)
    {items : List (Option Expression × Expression)} (h : SpellsItems names expr items)
    {f : List ArrayItem → Check Facts}
    (hf : ∀ all, all.isEmpty = items.isEmpty → Spells names (f all) [] Anything P) :
    Spells names
      (bound >>= fun fuel => arrayItems expr close fuel [] >>= fun all =>
        require close >>= fun _ => f all)
      (Expression.itemSymbols items ++ [.fixed close]) Anything P := by
  refine .bound fun fuel hfuel => ?_
  have hlength : (Expression.itemSymbols items).length ≤ fuel := by
    rw [List.length_append] at hfuel
    omega
  refine (spells_arrayItems hclose h hlength).bind rfl fun all hall => ?_
  refine .require rfl (by obtain rfl | rfl := hclose <;> nofun) fun _ => hf all ?_
  rw [Bool.eq_iff_iff, List.isEmpty_iff_length_eq_zero, List.isEmpty_iff_length_eq_zero, hall,
    List.length_nil, Nat.zero_add]

/-- An array literal, whose truth is whether it has elements. -/
lemma spells_arrayLiteral (isWord : Bool) {items : List (Option Expression × Expression)}
    (h : SpellsItems names expr items) :
    Spells names (operand expr) (Expression.array isWord items).symbols Anything
      (HasTruth (some !items.isEmpty)) := by
  cases isWord with
  | false =>
      refine .first (.advance nofun fun opening hopening => .look peeks_positionOf fun _ => ?_)
      rw [show opening.kind = .openBracket from congrArg Symbol.kind hopening]
      exact spells_items (Or.inr rfl) h fun all hall =>
        .typed _ fun _ => .pure (congrArg (fun b => some !b) hall)
  | true =>
      refine .first (.advance nofun fun opening hopening => .look peeks_positionOf fun _ => ?_)
      rw [show opening.kind = .kwArray from congrArg Symbol.kind hopening]
      refine .require rfl nofun fun _ => ?_
      exact spells_items (Or.inl rfl) h fun all hall =>
        .typed _ fun _ => .pure (congrArg (fun b => some !b) hall)

/-! ### Every tree -/

@[simp] lemma length_inParens (xs : List Symbol) : (inParens xs).length = xs.length + 2 := by
  simp [inParens]

/-- A key or a value of an array is no longer than all elements, and has no other variables. -/
lemma part_le {items : List (Option Expression × Expression)}
    {item : Option Expression × Expression} (hitem : item ∈ items) (he : e = item.2 ∨ e ∈ item.1) :
    e.symbols.length ≤ (Expression.itemSymbols items).length ∧
      e.vars ⊆ Expression.itemVars items := by
  induction items with
  | nil => cases hitem
  | cons first rest ih =>
      obtain ⟨key, value⟩ := first
      have hlength : (Expression.keySymbols key).length + value.symbols.length +
          (Expression.itemSymbols rest).length ≤
            (Expression.itemSymbols ((key, value) :: rest)).length := by
        cases rest with
        | nil => simp [Expression.itemSymbols]
        | cons next rest =>
            simp only [Expression.itemSymbols, List.length_append, List.length_cons]
            omega
      have hvars : Expression.itemVars ((key, value) :: rest) =
          Expression.keyVars key ++ (value.vars ++ Expression.itemVars rest) :=
        Expression.itemVars.eq_2 ..
      rw [hvars]
      obtain rfl | hrest := List.mem_cons.mp hitem
      · obtain rfl | hkey := he
        · exact ⟨by omega, fun name hname => by simp [hname]⟩
        · obtain rfl : key = some e := hkey
          simp only [Expression.keySymbols, List.length_append, List.length_singleton] at hlength
          exact ⟨by omega, fun name hname => by simp [Expression.keyVars, hname]⟩
      · obtain ⟨hle, hsubset⟩ := ih hrest
        exact ⟨by omega, fun name hname => by simp [hsubset hname]⟩

/-- Every tree is read by readers that are deep enough. -/
lemma spellsTree_exprWithin (hthis : "this" ∉ names) (depth : Nat) (e : Expression)
    (hlength : e.symbols.length ≤ depth) (hvars : e.vars ⊆ names) :
    SpellsTree names (exprWithin depth) e := by
  -- the readers of the parts are one less deep, and every part is written with a symbol fewer
  induction depth generalizing e with
  | zero =>
      obtain ⟨x, xs, heq, -⟩ | ⟨xs, heq⟩ := e.symbols_eq_cons
      · simp [heq] at hlength
      · simp [heq] at hlength
  | succ depth ih =>
      intro power hpower
      cases e with
      | literal l whole =>
          rw [Expression.symbols, Expression.truth]
          exact spells_exprWithin_operand (spells_operand_literal whole) (fun _ _ => trivial)
            fun _ h => h.stops power
      | var name =>
          rw [Expression.symbols, Expression.truth]
          have hname : name ∈ names := hvars (List.mem_singleton_self name)
          have hread : Spells names (operand (exprWithin depth)) [⟨.var, name⟩] Anything _ :=
            .first (spells_variableUse hname fun h => hthis (h ▸ hname))
          exact spells_exprWithin_operand hread (fun _ _ => trivial) fun _ h => h.stops power
      | array isWord items =>
          have hitems : (Expression.itemSymbols items).length ≤ depth := by
            cases isWord <;> simp at hlength <;> omega
          have hpart {item} (hitem : item ∈ items) {e : Expression} (he : e = item.2 ∨ e ∈ item.1) :
              SpellsTree names (exprWithin depth) e := by
            obtain ⟨hle, hsubset⟩ := part_le hitem he
            exact ih e (hle.trans hitems) fun name hname => hvars (hsubset hname)
          have hread : SpellsItems names (exprWithin depth) items := fun item hitem =>
            ⟨hpart hitem (.inl rfl), fun key hkey => hpart hitem (.inr hkey)⟩
          exact spells_exprWithin_operand (spells_arrayLiteral isWord hread) (fun _ _ => trivial)
            fun _ h => h.stops power
      | group inner =>
          rw [Expression.symbols, length_inParens] at hlength
          have hread := (ih inner (by omega) hvars).spells_grouped
          exact spells_exprWithin_operand hread (fun _ _ => trivial) fun _ h => h.stops power
      | not operand =>
          simp only [Expression.symbols, List.length_cons, length_inParens] at hlength
          have hread := spells_not (ih (.group operand) (by simp; omega) hvars)
          exact spells_exprWithin_operand hread (fun _ h => h) fun _ h => h.stops power
      | logical op left right =>
          simp only [Expression.symbols, List.length_append, List.length_cons, length_inParens]
            at hlength
          obtain ⟨hleft, hright⟩ := List.append_subset.mp hvars
          have hread := ih (.group right) (by simp; omega) hright
          have hop : op.symbol.kind.power? = some .logical := by cases op <;> rfl
          refine spells_exprWithin_operator hop hpower (ih left (by omega) hleft).spells_grouped ?_
          intro facts hfacts
          rw [Expression.truth, ← show facts.truth = left.truth from hfacts]
          exact spells_logical op (hread.group _)
      | conditional condition yes no =>
          simp only [Expression.symbols, List.length_append, List.length_cons, length_inParens]
            at hlength
          obtain ⟨hcondition, hvars⟩ := List.append_subset.mp hvars
          obtain ⟨hyes, hno⟩ := List.append_subset.mp hvars
          have hread := ih (.group yes) (by simp; omega) hyes
          have hread' := ih (.group no) (by simp; omega) hno
          refine spells_exprWithin_operator rfl hpower
            (ih condition (by omega) hcondition).spells_grouped ?_
          intro facts hfacts
          rw [Expression.truth, ← show facts.truth = condition.truth from hfacts]
          have hspells := spells_conditional (spells_firstBranch hread facts) hread'
          rwa [List.append_assoc] at hspells
      | orElse condition no =>
          simp only [Expression.symbols, List.length_append, List.length_cons, length_inParens]
            at hlength
          obtain ⟨hcondition, hno⟩ := List.append_subset.mp hvars
          have hread := ih (.group no) (by simp; omega) hno
          refine spells_exprWithin_operator rfl hpower
            (ih condition (by omega) hcondition).spells_grouped ?_
          intro facts hfacts
          rw [Expression.truth, ← show facts.truth = condition.truth from hfacts]
          exact spells_conditional (spells_firstBranch_missing facts) hread

/-- **Static truth is sound.** Where a tree of literals, arrays, declared variables, negations,
connectives and conditionals is written with its operands in parentheses, before a token that is no
operator, its symbols are read as an expression. Nothing changes but the cursor, which is then
behind them, and the compiled types. If the truth is said to be known, then it is that of the value
of the tree, whatever the variables are; without variables it is known. -/
theorem static_truth_sound (e : Expression) (power : Power) (s : State)
    (hpower : power.rank < e.rank)
    (hvars : ∀ name ∈ e.vars, name ≠ "this" ∧ (s.scope.lookup name).isSome)
    (hsymbols : e.symbols <+: s.cursor.symbols)
    (hnext : (s.cursor.past e.symbols.length).kind.power? = none) :
    ∃ facts types, Check.expr power s =
        .ok facts { s with cursor := s.cursor.past e.symbols.length, types := types } ∧
      (∀ b, facts.truth = some b → ∀ toKey values, (e.eval toKey values).isTruthy = b) ∧
      (e.vars = [] → facts.truth.isSome) := by
  have hthis : "this" ∉ e.vars := fun h => (hvars _ h).1 rfl
  have hread : Spells e.vars (Check.expr power) e.symbols Ends (HasTruth e.truth) :=
    .bound fun fuel hfuel => spellsTree_exprWithin hthis (fuel + 1) e (by omega)
      (fun _ h => h) power hpower
  obtain ⟨facts, types, hrun, htruth⟩ := hread s (fun name h => (hvars name h).2) hsymbols hnext
  refine ⟨facts, types, hrun, fun b hb toKey values => ?_, fun hnone => ?_⟩
  · exact e.knows_truth toKey values b (htruth.symm.trans hb)
  · rw [show facts.truth = e.truth from htruth]
    exact e.isSome_truth hnone

/-- A condition that never holds, because an array with an element counts as true. -/
def neverHolds : Expression :=
  .logical .and (.orElse (.var "x") (.literal (.text "0") trivial))
    (.not (.array false [(some (.literal (.text "k") trivial), .var "x")]))

/-- The condition, where its variable is declared. -/
def beforeNeverHolds : State where
  cursor := {
    file := "main"
    tokens :=
      (neverHolds.symbols.map fun x => ⟨x.kind, x.value, 0, 0⟩).toArray.push ⟨.eof, "", 0, 0⟩ }
  scope := [("x", { type := .mixed, isAnnotated := false })]

/-- It is read to its end, and not said to hold. -/
theorem static_truth_sound_neverHolds :
    ∃ facts s', Check.expr .lowest beforeNeverHolds = .ok facts s' ∧ s'.cursor.kind = .eof ∧
      facts.truth ≠ some true := by
  have hvars : ∀ name ∈ neverHolds.vars,
      name ≠ "this" ∧ (beforeNeverHolds.scope.lookup name).isSome := by
    intro name hname
    obtain rfl : name = "x" := by
      simpa [neverHolds, Expression.itemVars, Expression.keyVars] using hname
    exact ⟨by decide, rfl⟩
  obtain ⟨facts, types, hrun, hsound, -⟩ := static_truth_sound neverHolds .lowest beforeNeverHolds
    (by decide) hvars (by decide) (by decide)
  have hend : (beforeNeverHolds.cursor.past neverHolds.symbols.length).kind = .eof := by decide
  refine ⟨facts, _, hrun, hend, fun h => ?_⟩
  have hvalue : (neverHolds.eval (fun _ => .int 0) fun _ => .null).isTruthy = false := by decide
  exact absurd (hsound true h (fun _ => .int 0) fun _ => .null) (by rw [hvalue]; nofun)

end Check

end ScriptCheck
