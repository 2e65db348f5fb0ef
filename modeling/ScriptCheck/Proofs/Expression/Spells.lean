import ScriptCheck.Proofs.Analysis.Stmt.Progress
import ScriptCheck.Proofs.Statement.Tree

/-!
Readers of the symbols of expressions.

An expression without assignments changes little: it moves the cursor and compiles types. `Spells`
says of a computation that, started where given symbols stand and where given variables are
declared, it gives a result of a given sort, has read exactly these symbols, and has changed nothing
else. It holds in every routine and class, and at every depth of loops.

There is one rule for each step: `Spells.bind` for a part with symbols of its own, `Spells.require`
and others for single tokens, `Spells.look` and `Spells.of_run` for steps that only look at the
state.
-/

namespace ScriptCheck

/-! ### Cursors and symbols -/

namespace Cursor

variable {c : Cursor} {x : Symbol} {xs ys : List Symbol}

/-- The cursor some tokens further on. -/
def past (c : Cursor) (n : Nat) : Cursor := { c with index := c.index + n }

lemma past_past (c : Cursor) (m n : Nat) : (c.past m).past n = c.past (m + n) := by
  simp only [past, Nat.add_assoc]

lemma symbols_past (c : Cursor) (n : Nat) : (c.past n).symbols = c.symbols.drop n := by
  simp only [symbols, rest, past, List.map_drop, List.drop_drop]

lemma prefix_symbols_past (h : xs ++ ys <+: c.symbols) : ys <+: (c.past xs.length).symbols := by
  obtain ⟨rest, hrest⟩ := h
  refine ⟨rest, ?_⟩
  rw [symbols_past, ← hrest, List.append_assoc, List.drop_left]

lemma length_symbols (c : Cursor) : c.symbols.length = c.remaining := by
  rw [symbols, List.length_map, length_rest, remaining]

lemma current_symbol (h : x :: xs <+: c.symbols) : c.current.symbol = x := by
  obtain ⟨rest, hrest⟩ := h
  have hget : c.symbols[0]? = some x := by rw [← hrest]; rfl
  have htoken : c.tokens[c.index]?.map Token.symbol = some x := by
    simpa [symbols, Cursor.rest] using hget
  rw [current]
  cases hat : c.tokens[c.index]? with
  | none => simp [hat] at htoken
  | some token => simpa [hat] using htoken

lemma kind_eq (h : x :: xs <+: c.symbols) : c.kind = x.kind := by
  rw [← current_symbol h]
  rfl

lemma advance_eq_past (h : x :: xs <+: c.symbols) (hx : x.kind ≠ .eof) : c.advance = c.past 1 := by
  have hk : c.kind ≠ .eof := by rwa [kind_eq h]
  exact advance_eq_of_ne hk

end Cursor

/-- What is found out about the truth of a literal. -/
def Literal.countsAsTrue : Literal → Bool
  | number digits => Number.isNonzero digits.toList
  | text content => !(content.isEmpty || content == "0")
  | boolean value => value
  | null => false

namespace Check

variable {α β : Type} {names : List String} {m : Check α} {f : α → Check β} {x y : Symbol}
  {xs ys : List Symbol} {F G : Kind → Prop} {P : α → Prop} {Q : β → Prop}

/-- Every token is of any kind. -/
def Anything (_ : Kind) : Prop := True

/-- If symbols are read next and then a token as in the second condition, then what comes next is as
in the first. -/
def Leads (F G : Kind → Prop) : List Symbol → Prop
  | [] => ∀ kind, G kind → F kind
  | y :: _ => F y.kind

lemma leads_anything : Leads Anything G ys := by
  cases ys with
  | nil => exact fun _ _ => trivial
  | cons y ys => exact trivial

lemma Leads.kind {c : Cursor} (h : Leads F G ys) (hys : ys <+: c.symbols)
    (hnext : G (c.past ys.length).kind) : F c.kind := by
  cases ys with
  | nil => exact h _ hnext
  | cons y ys =>
      rw [Cursor.kind_eq hys]
      exact h

/-- Where the variables are declared, before the symbols and a token of a kind as given, the
computation gives a result as given; it has read the symbols, and else only compiled types. -/
def Spells (names : List String) (m : Check α) (symbols : List Symbol) (next : Kind → Prop)
    (result : α → Prop) : Prop :=
  ∀ s : State, (∀ name ∈ names, (s.scope.lookup name).isSome) → symbols <+: s.cursor.symbols →
    next (s.cursor.past symbols.length).kind →
    ∃ a types, m s = .ok a { s with cursor := s.cursor.past symbols.length, types := types } ∧
      result a

/-! ### Composition -/

lemma Spells.mono {P' : α → Prop} (h : Spells names m xs F P) (hG : ∀ kind, G kind → F kind)
    (hP : ∀ a, P a → P' a) : Spells names m xs G P' := by
  intro s hs hxs hnext
  obtain ⟨a, types, hrun, ha⟩ := h s hs hxs (hG _ hnext)
  exact ⟨a, types, hrun, hP a ha⟩

lemma Spells.pure {a : α} (h : P a) : Spells names (Pure.pure a : Check α) [] F P :=
  fun s _ _ _ => ⟨a, s.types, rfl, h⟩

/-- A part with symbols of its own, and what follows it. -/
lemma Spells.bind (hm : Spells names m xs F P) (hnext : Leads F G ys)
    (hf : ∀ a, P a → Spells names (f a) ys G Q) : Spells names (m >>= f) (xs ++ ys) G Q := by
  intro s hs hxs hG
  have hrest : ys <+: (s.cursor.past xs.length).symbols := Cursor.prefix_symbols_past hxs
  have hG' : G ((s.cursor.past xs.length).past ys.length).kind := by
    rwa [Cursor.past_past, ← List.length_append]
  obtain ⟨a, types, hrun, ha⟩ :=
    hm s hs ((List.prefix_append xs ys).trans hxs) (hnext.kind hrest hG')
  obtain ⟨b, types', hrun', hb⟩ :=
    hf a ha { s with cursor := s.cursor.past xs.length, types := types } hs hrest hG'
  refine ⟨b, types', (bind_of_ok hrun).trans (hrun'.trans ?_), hb⟩
  rw [Cursor.past_past, ← List.length_append]

/-- A part after which nothing more is read. -/
lemma Spells.bind_last (hm : Spells names m xs F P) (hnext : ∀ kind, G kind → F kind)
    (hf : ∀ a, P a → Spells names (f a) [] G Q) : Spells names (m >>= f) xs G Q := by
  have hbind : Spells names (m >>= f) (xs ++ []) G Q := hm.bind hnext hf
  rwa [List.append_nil] at hbind

/-- A step that only looks at the state. -/
lemma Spells.look (hm : Peeks m) (hf : ∀ a, Spells names (f a) ys G Q) :
    Spells names (m >>= f) ys G Q := by
  intro s hs hys hG
  obtain ⟨a, ha⟩ := hm s
  rw [bind_of_ok ha]
  exact hf a s hs hys hG

/-- A step that changes nothing, and what it gives before the symbols. -/
lemma Spells.of_run {a : α} (hm : ∀ s : State, ys <+: s.cursor.symbols → m s = .ok a s)
    (hf : Spells names (f a) ys G Q) : Spells names (m >>= f) ys G Q := by
  intro s hs hys hG
  rw [bind_of_ok (hm s hys)]
  exact hf s hs hys hG

lemma spells_typeOf {descriptor : String} :
    Spells names (typeOf descriptor) [] Anything fun _ => True := by
  intro s _ _ _
  obtain ⟨type, hrun⟩ := typeOf_run descriptor s
  exact ⟨type, _, hrun, trivial⟩

/-- A type is compiled. -/
lemma Spells.typed {f : Ty → Check β} (descriptor : String)
    (hf : ∀ type, Spells names (f type) ys G Q) : Spells names (typeOf descriptor >>= f) ys G Q :=
  spells_typeOf.bind leads_anything fun type _ => hf type

/-- A bound taken from the tokens that are left is above the number of symbols. -/
lemma Spells.bound {f : Nat → Check β}
    (hf : ∀ fuel, ys.length ≤ fuel → Spells names (f (fuel + 1)) ys G Q) :
    Spells names (Check.bound >>= f) ys G Q := by
  intro s hs hys hG
  refine hf s.cursor.remaining ?_ s hs hys hG
  rw [← Cursor.length_symbols]
  exact hys.length_le

/-! ### Single tokens -/

lemma Spells.kind {f : Kind → Check β} (hnext : Leads F G ys)
    (hf : ∀ kind, F kind → Spells names (f kind) ys G Q) :
    Spells names (Check.kind >>= f) ys G Q :=
  fun s hs hys hG => hf _ (hnext.kind hys hG) s hs hys hG

/-- The first symbol decides what is done. -/
lemma Spells.first {f : Kind → Check β} (h : Spells names (f x.kind) (x :: ys) G Q) :
    Spells names (Check.kind >>= f) (x :: ys) G Q :=
  .kind (F := (· = x.kind)) rfl fun _ hkind => hkind ▸ h

/-- The first symbol is looked at. -/
lemma Spells.current {f : Token → Check β}
    (hf : ∀ token, token.symbol = x → Spells names (f token) (x :: ys) G Q) :
    Spells names (Check.current >>= f) (x :: ys) G Q :=
  fun s hs hxs hG => hf _ (Cursor.current_symbol hxs) s hs hxs hG

/-- A step that moves the cursor over one token. -/
lemma spells_single {g : State → α} (hx : x.kind ≠ .eof)
    (hrun : ∀ s : State, [x] <+: s.cursor.symbols →
      m s = .ok (g s) { s with cursor := s.cursor.advance } ∧ P (g s)) :
    Spells names m [x] Anything P := by
  intro s _ hxs _
  obtain ⟨hrun, hP⟩ := hrun s hxs
  rw [Cursor.advance_eq_past hxs hx] at hrun
  exact ⟨g s, s.types, hrun, hP⟩

lemma spells_advance (hx : x.kind ≠ .eof) :
    Spells names advance [x] Anything fun token => token.symbol = x :=
  spells_single hx fun _ hxs => ⟨rfl, Cursor.current_symbol hxs⟩

/-- A token that is required and there. -/
lemma spells_require {k : Kind} (hx : x.kind = k) (hk : k ≠ .eof) :
    Spells names (require k) [x] Anything fun token => token.symbol = x :=
  spells_single (hx ▸ hk) fun _ hxs =>
    ⟨require_of_kind ((Cursor.kind_eq hxs).trans hx), Cursor.current_symbol hxs⟩

/-- An optional token that is there. -/
lemma spells_takes {k : Kind} (hx : x.kind = k) (hk : k ≠ .eof) :
    Spells names (takes k) [x] Anything (· = true) :=
  spells_single (hx ▸ hk) fun _ hxs => ⟨takes_of_kind ((Cursor.kind_eq hxs).trans hx), rfl⟩

lemma Spells.advance {f : Token → Check β} (hx : x.kind ≠ .eof)
    (hf : ∀ token, token.symbol = x → Spells names (f token) ys G Q) :
    Spells names (Check.advance >>= f) (x :: ys) G Q :=
  (spells_advance hx).bind leads_anything hf

lemma Spells.require {f : Token → Check β} {k : Kind} (hx : x.kind = k) (hk : k ≠ .eof)
    (hf : ∀ token, Spells names (f token) ys G Q) :
    Spells names (Check.require k >>= f) (x :: ys) G Q :=
  (spells_require hx hk).bind leads_anything fun token _ => hf token

lemma Spells.takes {f : Bool → Check β} {k : Kind} (hx : x.kind = k) (hk : k ≠ .eof)
    (hf : Spells names (f true) ys G Q) : Spells names (Check.takes k >>= f) (x :: ys) G Q :=
  (spells_takes hx hk).bind leads_anything fun _ htaken => htaken ▸ hf

/-- An optional token that is not there. -/
lemma Spells.takes_not {f : Bool → Check β} {k : Kind} (hnext : Leads (· ≠ k) G ys)
    (hf : Spells names (f false) ys G Q) : Spells names (Check.takes k >>= f) ys G Q := by
  intro s hs hys hG
  rw [bind_of_ok (takes_of_ne (hnext.kind hys hG))]
  exact hf s hs hys hG

/-! ### Literals -/

lemma spells_literal (l : Literal) : Spells names literal [l.symbol] Anything fun facts =>
    facts.raises = ∅ ∧ facts.truth = some l.countsAsTrue := by
  have hne : l.symbol.kind ≠ .eof := by
    cases l with
    | boolean value => cases value <;> decide
    | _ => nofun
  refine .advance hne fun token htoken => .look peeks_positionOf fun position => ?_
  have hkind : token.kind = l.symbol.kind := congrArg Symbol.kind htoken
  cases l with
  | number digits =>
      have hvalue : token.value = digits := congrArg Symbol.value htoken
      rw [show token.kind = .number from hkind, hvalue]
      exact .typed _ fun _ => .pure ⟨rfl, rfl⟩
  | text content =>
      have hvalue : token.value = content := congrArg Symbol.value htoken
      rw [show token.kind = .text from hkind, hvalue]
      exact .typed _ fun _ => .pure ⟨rfl, rfl⟩
  | boolean value =>
      cases value with
      | true =>
          rw [show token.kind = .kwTrue from hkind]
          exact .typed _ fun _ => .pure ⟨rfl, rfl⟩
      | false =>
          rw [show token.kind = .kwFalse from hkind]
          exact .typed _ fun _ => .pure ⟨rfl, rfl⟩
  | null =>
      rw [show token.kind = .kwNull from hkind]
      exact .typed _ fun _ => .pure ⟨rfl, rfl⟩

lemma spells_literal_operand (expr : ExprReader) (l : Literal) :
    Spells names (operand expr) [l.symbol] Anything fun facts =>
      facts.raises = ∅ ∧ facts.truth = some l.countsAsTrue := by
  have hread : Spells names literal [l.symbol] Anything _ := spells_literal l
  cases l with
  | boolean value => cases value <;> exact .first hread
  | _ => exact .first hread

end Check

end ScriptCheck
