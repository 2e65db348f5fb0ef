import ScriptCheck.Proofs.Statement.Compound

/-!
The reader of statements computes the exits of trees.

The kind of the first symbol leads to the reader for the form of a statement. The depth that the
reader is given goes down by one inside of a compound statement, so by induction on the depth trees
with at most as many symbols are read (`readsTrees_stmtWithin`). The reader takes the number of
tokens that are left as its depth and reads every tree (`stmt_reads_tree`).
-/

namespace ScriptCheck

open Statement

/-! ### What stands after a statement -/

/-- The last symbol is a semicolon or a brace. -/
def EndsClosed (symbols : List Symbol) : Prop :=
  ∃ x ∈ symbols.getLast?, x.kind ∈ [.semicolon, .closeCurly]

namespace EndsClosed

variable {xs ys : List Symbol}

lemma append_left (xs : List Symbol) (h : EndsClosed ys) : EndsClosed (xs ++ ys) := by
  obtain ⟨x, hx, hkind⟩ := h
  refine ⟨x, ?_, hkind⟩
  rw [List.getLast?_append, Option.mem_def.mp hx]
  rfl

lemma cons (x : Symbol) (h : EndsClosed xs) : EndsClosed (x :: xs) := h.append_left [x]

lemma append (h : EndsClosed xs) (h' : ys = [] ∨ EndsClosed ys) : EndsClosed (xs ++ ys) := by
  rcases h' with rfl | h'
  · rwa [List.append_nil]
  · exact h'.append_left xs

end EndsClosed

lemma endsClosed_semicolon : EndsClosed [.fixed .semicolon] := ⟨_, rfl, by decide⟩

lemma endsClosed_inBraces {symbols : List Symbol} : EndsClosed (inBraces symbols) :=
  .cons _ (.append_left _ ⟨_, rfl, by decide⟩)

lemma endsClosed_branchSymbols (others : List (Condition × List Statement)) :
    branchSymbols others = [] ∨ EndsClosed (branchSymbols others) := by
  induction others with
  | nil => exact .inl rfl
  | cons other others ih =>
      exact .inr (.cons _ (.append_left _ (endsClosed_inBraces.append ih)))

lemma endsClosed_clauseSymbols (clauses : List (ClauseHead × List Statement)) :
    clauseSymbols clauses = [] ∨ EndsClosed (clauseSymbols clauses) := by
  induction clauses with
  | nil => exact .inl rfl
  | cons clause clauses ih => exact .inr (.append_left _ (endsClosed_inBraces.append ih))

lemma endsClosed_lastSymbols {word : Kind} (last : Option (List Statement)) :
    lastSymbols word last = [] ∨ EndsClosed (lastSymbols word last) := by
  cases last with
  | none => exact .inl rfl
  | some body => exact .inr (.cons _ endsClosed_inBraces)

lemma endsClosed_symbols (t : Statement) : EndsClosed t.symbols := by
  cases t with
  | empty => exact endsClosed_semicolon
  | echo shown => exact endsClosed_semicolon.append_left [_, _]
  | block body => exact endsClosed_inBraces
  | conditional c body others last =>
      refine .cons _ (.append_left _ ?_)
      rw [← List.append_assoc]
      exact (endsClosed_inBraces.append (endsClosed_branchSymbols others)).append
        (endsClosed_lastSymbols last)
  | whileLoop c body => exact .cons _ (.append_left _ endsClosed_inBraces)
  | doLoop body c =>
      exact .cons _ (.append_left _ (.cons _ (.append_left _ endsClosed_semicolon)))
  | forLoop c body => exact .append_left [_, _, _, _, _, _] endsClosed_inBraces
  | switch c groups => exact .cons _ (.append_left _ endsClosed_inBraces)
  | jump way level => exact .cons _ (.append_left _ endsClosed_semicolon)
  | ret => exact .cons _ endsClosed_semicolon
  | exit => exact .cons _ endsClosed_semicolon
  | guarded body clauses last =>
      refine .cons _ ?_
      rw [← List.append_assoc]
      exact (endsClosed_inBraces.append (endsClosed_clauseSymbols clauses)).append
        (endsClosed_lastSymbols last)

/-- Past the last token, the last one is seen again. -/
lemma Cursor.symbol_past_length {c : Cursor} {x : Symbol} (h : x ∈ c.symbols.getLast?) :
    (c.past c.symbols.length).current.symbol = x := by
  have hlast : c.rest.getLast?.map Token.symbol = some x := by
    rwa [← List.getLast?_map]
  rw [rest, List.getLast?_drop] at hlast
  split at hlast
  case isTrue => cases hlast
  case isFalse =>
    have hsize : c.tokens.size ≤ c.index + c.symbols.length := by
      rw [length_symbols, remaining]
      omega
    have hnone : c.tokens[c.index + c.symbols.length]? = none := Array.getElem?_eq_none hsize
    have hcurrent : (c.past c.symbols.length).current = c.tokens.back?.getD default := by
      simp only [current, past, hnone]
    obtain ⟨token, htoken, rfl⟩ := Option.map_eq_some_iff.mp hlast
    rw [hcurrent, ← Array.getLast?_toList, htoken]
    rfl

lemma not_mem_of_closed : ∀ kind ∈ [Kind.semicolon, .closeCurly], kind ∉ continuingKinds := by
  decide

/-- After a statement there is no token that goes on with it, if none follows in the symbols. -/
lemma kind_past_symbols {c : Cursor} {t : Statement} {rest : List Symbol}
    (hsymbols : c.symbols = t.symbols ++ rest)
    (hrest : ∀ x ∈ rest.head?, x.kind ∉ continuingKinds) :
    (c.past t.symbols.length).kind ∉ continuingKinds := by
  cases rest with
  | nil =>
      -- the cursor is past all tokens and sees the end of the statement itself
      rw [List.append_nil] at hsymbols
      obtain ⟨x, hx, hclosed⟩ := endsClosed_symbols t
      rw [← hsymbols] at hx ⊢
      have hkind : (c.past c.symbols.length).kind = x.kind :=
        congrArg Symbol.kind (Cursor.symbol_past_length hx)
      rw [hkind]
      exact not_mem_of_closed _ hclosed
  | cons y rest =>
      have hprefix : y :: rest <+: (c.past t.symbols.length).symbols := by
        rw [Cursor.symbols_past, hsymbols, List.drop_left]
      rw [Cursor.kind_eq hprefix]
      exact hrest y rfl

namespace Check

variable {Γ : Setting} {stmt : StmtReader} {d : Nat}

/-! ### All statements -/

/-- A statement that declares nothing leaves the setting as it is. -/
lemma ReadsTree.of_binds_nil {reader : StmtReader} {t : Statement} (hbinds : t.binds = [])
    (h : Parses Γ Γ reader t.symbols t.EndsBefore (· = t.exits Γ.classes Γ.classNamed?)) :
    ReadsTree reader Γ t := by
  rwa [ReadsTree, hbinds, Setting.declaring_nil]

/-- A statement of each form, with at most one symbol more than those that can be read inside. -/
lemma readsTree_byKind (h : ReadsTrees stmt d) {t : Statement} (hwf : t.WellFormed Γ)
    (hd : t.symbols.length ≤ d + 1) : ReadsTree (byKind stmt) Γ t := by
  cases t with
  | empty => exact .of_binds_nil rfl (.first parses_emptyStatement)
  | echo shown => exact .of_binds_nil rfl (.first (parses_echo shown))
  | block body =>
      rw [symbols, length_inBraces] at hd
      exact .first (parses_block h hwf (by omega))
  | conditional c body others last => exact .first (parses_ifStatement h hwf hd)
  | whileLoop c body => exact .first (parses_whileStatement h hwf hd)
  | doLoop body c => exact .first (parses_doStatement h hwf hd)
  | forLoop c body => exact .first (parses_forStatement h hwf hd)
  | switch c groups => exact .first (parses_switchStatement h hwf hd)
  | jump way level =>
      obtain ⟨hpos, hdepth, hlt⟩ := hwf
      cases way with
      | breaks => exact .of_binds_nil rfl (.first (parses_jump .breaks hpos hdepth hlt))
      | continues => exact .of_binds_nil rfl (.first (parses_jump .continues hpos hdepth hlt))
  | ret => exact .of_binds_nil rfl (.first parses_returnStatement)
  | exit => exact .of_binds_nil rfl (.first parses_exitStatement)
  | guarded body clauses last => exact .first (parses_tryStatement h hwf hd)

/-- With a depth, trees with at most as many symbols are read. -/
lemma readsTrees_stmtWithin (d : Nat) : ReadsTrees (stmtWithin d) d := by
  induction d with
  | zero =>
      intro Γ t _ hd
      obtain ⟨x, xs, hx, -⟩ := t.exists_symbols_cons
      simp [hx] at hd
  | succ d ih => exact fun Γ t hwf hd => (readsTree_byKind ih hwf hd).recover

lemma readsTree_stmt {t : Statement} (hwf : t.WellFormed Γ) : ReadsTree Check.stmt Γ t :=
  .bound fun fuel hfuel =>
    readsTrees_stmtWithin (fuel + 1) Γ t hwf (Nat.le_succ_of_le hfuel)

/-- A well-formed tree outside of routines is read from its symbols, whatever follows them that does
not go on with it: its exits are the result, exactly its symbols are read, and no mistake of the
grammar is reported. -/
theorem stmt_reads_tree (t : Statement) (s : State) (rest : List Symbol)
    (hfile : s.routine = none) (hwf : t.WellFormed (.ofState s))
    (hsymbols : s.cursor.symbols = t.symbols ++ rest)
    (hrest : ∀ x ∈ rest.head?, x.kind ∉ continuingKinds) :
    ∃ s', Check.stmt s = .ok (t.exits s.env.classes s.classNamed?) s' ∧
      s'.cursor = s.cursor.past t.symbols.length ∧
      ∃ added, s'.log.entries = s.log.entries ++ added ∧ ∀ d ∈ added, d.IsHarmless := by
  have hnext : (s.cursor.past t.symbols.length).kind ∉ continuingKinds :=
    kind_past_symbols hsymbols hrest
  obtain ⟨_, s', hrun, rfl, -, hpassed⟩ := readsTree_stmt hwf s (Setting.fits_ofState hfile)
    ⟨rest, hsymbols.symm⟩ (endsBefore_of_not_mem hnext t)
  exact ⟨s', hrun, hpassed.cursor, hpassed.log⟩

/-- An endless loop around a guarded switch, with a break out of the loop and a return in the
clause. -/
def retryLoop : Statement :=
  .whileLoop .holds [
    .guarded
      [.switch (.var "mode") [
        (.case (.number "1"), [.jump .breaks (some 2)]),
        (.otherwise, [.jump .continues none])]]
      [(⟨"Failure", [], "error"⟩, [.conditional (.var "error") [.ret] [] none])]
      (some [.echo (.text "done")])]

/-- A file that consists of the loop, where its variable and its class are known. -/
def beforeRetryLoop : State where
  cursor := {
    file := "main"
    tokens :=
      (retryLoop.symbols.map fun x => ⟨x.kind, x.value, 0, 0⟩).toArray.push ⟨.eof, "", 0, 0⟩ }
  env := { classes := { defs := [{ name := "Failure", position := ⟨0, "shell"⟩ }] } }
  scope := [("mode", { type := .mixed, isAnnotated := false })]

/-- Control passes the loop or leaves the routine. -/
theorem stmt_reads_tree_retryLoop :
    ∃ s', Check.stmt beforeRetryLoop = .ok { completes := true, stops := true } s' ∧
      s'.cursor.index = retryLoop.symbols.length ∧ s'.cursor.kind = .eof := by
  have hwf : retryLoop.WellFormed (.ofState beforeRetryLoop) := by
    simp only [retryLoop, WellFormed, SequenceWellFormed, GroupsWellFormed, ClausesWellFormed,
      LastWellFormed, BranchesWellFormed, Condition.IsDeclared]
    decide
  have hexits : retryLoop.exits beforeRetryLoop.env.classes beforeRetryLoop.classNamed? =
      { completes := true, stops := true } := by
    decide
  obtain ⟨s', hrun, hcursor, -⟩ :=
    stmt_reads_tree retryLoop beforeRetryLoop [⟨.eof, ""⟩] rfl hwf rfl (by decide)
  rw [hexits] at hrun
  refine ⟨s', hrun, ?_⟩
  rw [hcursor]
  exact ⟨by decide, by decide⟩

end Check

end ScriptCheck
