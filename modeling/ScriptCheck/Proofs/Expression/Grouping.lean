import ScriptCheck.Proofs.Analysis.EscapingJumps
import ScriptCheck.Proofs.Expression.Reading

/-!
Chains of connectives.

A `Chain` is a sequence of operands with a connective between each two. The two connectives have one
binding power, so that a chain without parentheses is grouped from the left: its truth is folded
over the operands in their order (`Chain.truth`). Putting each longest run of conjunctions in
parentheses gives another chain, whose operands are the runs and whose connectives are disjunctions
(`Chain.grouped`).

`chains_group_from_left` says what is known of both, for chains of truth values and variables, and
for which connectives they are always the same: those without a conjunction after a disjunction.
-/

namespace ScriptCheck

/-- An operand of a chain: its symbols, and what is known of its truth. -/
structure Operand where
  symbols : List Symbol
  truth : Option Bool

/-- The operand that is a condition. -/
def Condition.operand (c : Condition) : Operand := ⟨[c.symbol], c.truth⟩

/-- The variable of a condition, if it is one. -/
def Condition.name? : Condition → Option String
  | var name => some name
  | _ => none

/-- A chain: an operand, and further ones with the connectives before them. -/
structure Chain where
  first : Operand
  links : List (Connective × Operand)

namespace Chain

def symbols (c : Chain) : List Symbol :=
  c.first.symbols ++ c.links.flatMap fun link => link.1.symbol :: link.2.symbols

/-- What is known of the truth of the chain, if it is grouped from the left. -/
def truth (c : Chain) : Option Bool :=
  c.links.foldl (fun left link => link.1.truth left link.2.truth) c.first.truth

/-- The chain as an operand of another one. -/
def inParens (c : Chain) : Operand := ⟨ScriptCheck.inParens c.symbols, c.truth⟩

/-- The conjunctions that go on a run. -/
def runTail (links : List (Connective × Operand)) : List (Connective × Operand) :=
  links.takeWhile (·.1 = .and)

/-- The runs of conjunctions that start after a disjunction. -/
def laterRuns : List (Connective × Operand) → List Chain
  | [] => []
  | (.and, _) :: rest => laterRuns rest
  | (.or, x) :: rest => ⟨x, runTail rest⟩ :: laterRuns rest

/-- The run of conjunctions at the start of the chain. -/
def firstRun (c : Chain) : Chain := ⟨c.first, runTail c.links⟩

/-- The chain with each longest run of conjunctions in parentheses. -/
def grouped (c : Chain) : Chain :=
  ⟨c.firstRun.inParens, (laterRuns c.links).map fun run => (.or, run.inParens)⟩

/-- The chain of conditions. -/
def ofConditions (first : Condition) (links : List (Connective × Condition)) : Chain :=
  ⟨first.operand, links.map fun link => (link.1, link.2.operand)⟩

/-! ### Where the groupings agree -/

/-- No conjunction stands after a disjunction. -/
def ConjunctionsFirst (connectives : List Connective) : Prop :=
  ∀ before after, connectives = before ++ .and :: after → .or ∉ before

lemma ConjunctionsFirst.tail {op : Connective} {rest : List Connective}
    (h : ConjunctionsFirst (op :: rest)) : ConjunctionsFirst rest := by
  intro before after heq hor
  exact h (op :: before) after (congrArg (op :: ·) heq) (List.mem_cons_of_mem _ hor)

lemma ConjunctionsFirst.not_mem {rest : List Connective} (h : ConjunctionsFirst (.or :: rest)) :
    .and ∉ rest := by
  intro hand
  obtain ⟨before, after, heq⟩ := List.append_of_mem hand
  exact h (.or :: before) after (congrArg (.or :: ·) heq) List.mem_cons_self

/-- What is known of the grouped chain: a disjunction of its runs. -/
lemma truth_grouped (c : Chain) : c.grouped.truth =
    (laterRuns c.links).foldl (fun left run => Check.orTruth left run.truth) c.firstRun.truth :=
  List.foldl_map

/-- Without a conjunction after a disjunction, the runs after the first are single operands, and
grouping changes nothing. -/
lemma truth_grouped_eq (first : Operand) :
    ∀ links : List (Connective × Operand), ConjunctionsFirst (links.map (·.1)) →
      (Chain.mk first links).grouped.truth = (Chain.mk first links).truth
  | [], _ => rfl
  | (.and, x) :: rest, h => by
      have ih := truth_grouped_eq ⟨[], Check.andTruth first.truth x.truth⟩ rest h.tail
      rw [truth_grouped] at ih ⊢
      exact ih
  | (.or, x) :: rest, h => by
      have ih := truth_grouped_eq ⟨[], Check.orTruth first.truth x.truth⟩ rest h.tail
      have hnone : runTail rest = [] := by
        cases rest with
        | nil => rfl
        | cons link rest =>
            have hne : link.1 ≠ .and := fun heq => h.not_mem (heq ▸ List.mem_cons_self)
            simp [runTail, hne]
      rw [truth_grouped] at ih ⊢
      simp only [firstRun, laterRuns, List.foldl_cons, truth, hnone, List.foldl_nil] at ih ⊢
      exact ih

/-! ### Where they differ -/

/-- Up to the first disjunction all holds, so the first run does. -/
lemma foldl_runTail {before links : List (Connective × Operand)}
    (hor : .or ∈ before.map (·.1)) (hholds : ∀ link ∈ before, link.2.truth = some true) :
    (runTail (before ++ links)).foldl (fun left link => link.1.truth left link.2.truth)
      (some true) = some true := by
  induction before with
  | nil => cases hor
  | cons link before ih =>
      obtain ⟨op, x⟩ := link
      cases op with
      | or => rfl
      | and =>
          have hx : x.truth = some true := hholds _ List.mem_cons_self
          have hrest := ih (by simpa using hor) fun link h => hholds link (List.mem_cons_of_mem _ h)
          simpa [runTail, Connective.truth, hx, Check.andTruth] using hrest

/-- A disjunction holds if its first operand does. -/
lemma foldl_orTruth {runs : List Chain} :
    runs.foldl (fun left run => Check.orTruth left run.truth) (some true) = some true := by
  induction runs with
  | nil => rfl
  | cons run runs ih => exact ih

/-- Operands that are all known in the same way are so together. -/
lemma foldl_constant {value : Bool} {links : List (Connective × Operand)}
    (h : ∀ link ∈ links, link.2.truth = some value) :
    links.foldl (fun left link => link.1.truth left link.2.truth) (some value) = some value := by
  induction links with
  | nil => rfl
  | cons link rest ih =>
      have hlink : link.1.truth (some value) (some value) = some value := by
        cases link.1 <;> cases value <;> rfl
      rw [List.foldl_cons, h link List.mem_cons_self, hlink]
      exact ih fun link hmem => h link (List.mem_cons_of_mem _ hmem)

/-- All holds up to a conjunction, and nothing from there on. -/
def tellingLinks (before after : List Connective) : List (Connective × Condition) :=
  before.map (·, .holds) ++ (.and, .fails) :: after.map (·, .fails)

lemma ofConditions_tellingLinks (before after : List Connective) :
    ofConditions .holds (tellingLinks before after) =
      ⟨Condition.holds.operand, before.map (·, Condition.holds.operand) ++
        (.and, Condition.fails.operand) :: after.map (·, Condition.fails.operand)⟩ := by
  simp [ofConditions, tellingLinks, Function.comp_def]

lemma truth_of_mem_map {c : Condition} {connectives : List Connective}
    {link : Connective × Operand} (h : link ∈ connectives.map (·, c.operand)) :
    link.2.truth = c.truth := by
  obtain ⟨op, -, rfl⟩ := List.mem_map.mp h
  rfl

/-- Grouped from the left the chain fails. -/
lemma truth_tellingLinks (before after : List Connective) :
    (ofConditions .holds (tellingLinks before after)).truth = some false := by
  have hholds : (before.map (·, Condition.holds.operand)).foldl
      (fun left link => link.1.truth left link.2.truth) (some true) = some true :=
    foldl_constant fun _ => truth_of_mem_map
  have hfails : (after.map (·, Condition.fails.operand)).foldl
      (fun left link => link.1.truth left link.2.truth) (some false) = some false :=
    foldl_constant fun _ => truth_of_mem_map
  rw [ofConditions_tellingLinks, truth, List.foldl_append, List.foldl_cons]
  rw [show Condition.holds.operand.truth = some true from rfl, hholds]
  exact hfails

/-- As a disjunction of its runs it holds, if there is a disjunction before the conjunction. -/
lemma truth_grouped_tellingLinks {before : List Connective} (after : List Connective)
    (hor : .or ∈ before) :
    (ofConditions .holds (tellingLinks before after)).grouped.truth = some true := by
  have hrun : (runTail (before.map (·, Condition.holds.operand) ++
      (.and, Condition.fails.operand) :: after.map (·, Condition.fails.operand))).foldl
      (fun left link => link.1.truth left link.2.truth) (some true) = some true :=
    foldl_runTail (by simpa using hor) fun _ => truth_of_mem_map
  rw [ofConditions_tellingLinks, truth_grouped, firstRun, truth]
  rw [show Condition.holds.operand.truth = some true from rfl, hrun]
  exact foldl_orTruth

/-- With a conjunction after a disjunction, there are operands that tell the groupings apart. -/
lemma exists_truth_grouped_ne {connectives : List Connective}
    (h : ¬ConjunctionsFirst connectives) :
    ∃ (first : Condition) (links : List (Connective × Condition)),
      links.map (·.1) = connectives ∧
        (ofConditions first links).grouped.truth ≠ (ofConditions first links).truth := by
  simp only [ConjunctionsFirst, not_forall, not_not] at h
  obtain ⟨before, after, rfl, hor⟩ := h
  refine ⟨.holds, tellingLinks before after, ?_, ?_⟩
  · simp [tellingLinks, Function.comp_def]
  · rw [truth_tellingLinks, truth_grouped_tellingLinks after hor]
    nofun

end Chain

/-! ### Reading chains -/

namespace Check

open Chain

variable {names : List String} {least depth : Nat} {power : Power} {c : Chain}

/-- The operand is read wherever readers are deep enough, and does not start like a type. -/
structure Readable (names : List String) (least : Nat) (x : Operand) : Prop where
  starts : ∃ y ys, x.symbols = y :: ys ∧ y.kind ≠ .name ∧ y.kind ≠ .kwArray
  spells : ∀ depth, least ≤ depth →
    Spells names (operand (exprWithin depth)) x.symbols Anything (HasTruth x.truth)

lemma readable_condition {c : Condition} (h : ∀ name ∈ c.name?, name ∈ names ∧ name ≠ "this") :
    Readable names 0 c.operand := by
  cases c with
  | holds =>
      refine ⟨⟨_, _, rfl, nofun, nofun⟩, fun depth _ => ?_⟩
      exact spells_operand_literal (l := .boolean true) trivial
  | fails =>
      refine ⟨⟨_, _, rfl, nofun, nofun⟩, fun depth _ => ?_⟩
      exact spells_operand_literal (l := .boolean false) trivial
  | var name =>
      obtain ⟨hname, hthis⟩ := h name rfl
      exact ⟨⟨_, _, rfl, nofun, nofun⟩, fun depth _ => .first (spells_variableUse hname hthis)⟩

/-- The operands of the chain are readable. -/
def ReadableChain (names : List String) (least : Nat) (c : Chain) : Prop :=
  Readable names least c.first ∧ ∀ link ∈ c.links, Readable names least link.2

lemma power?_connective (op : Connective) : op.symbol.kind.power? = some .logical := by
  cases op <;> rfl

/-- A connective ends the operand before it. -/
lemma leads_links (links : List (Connective × Operand)) :
    Leads (Stops .logical) Ends (links.flatMap fun link => link.1.symbol :: link.2.symbols) := by
  cases links with
  | nil => exact fun _ h => h.stops .logical
  | cons link rest =>
      intro tighter htighter
      rw [power?_connective] at htighter
      cases htighter
      exact le_rfl

/-- The operands after the first are read one by one, each with the connective before it. -/
lemma spells_links (hpower : power.rank < Power.logical.rank) (hdepth : least ≤ depth)
    {links : List (Connective × Operand)} (h : ∀ link ∈ links, Readable names least link.2)
    {fuel : Nat} (hfuel : links.length ≤ fuel) (left : Facts) :
    Spells names (operators (exprWithin (depth + 1)) power (fuel + 1) left)
      (links.flatMap fun link => link.1.symbol :: link.2.symbols) Ends
      (HasTruth (links.foldl (fun left link => link.1.truth left link.2.truth) left.truth)) := by
  induction links generalizing left fuel with
  | nil =>
      exact (spells_operators_done (P := HasTruth left.truth) rfl fuel).mono
        (fun _ h => h.stops power) fun _ h => h
  | cons link rest ih =>
      obtain ⟨op, x⟩ := link
      have hx : Readable names least x := h (op, x) List.mem_cons_self
      have hoperand : Spells names (exprWithin (depth + 1) .logical) x.symbols (Stops .logical)
          (HasTruth x.truth) :=
        spells_exprWithin_operand (hx.spells depth hdepth) (fun _ _ => trivial) fun _ h => h
      obtain ⟨fuel, rfl⟩ : ∃ n, fuel = n + 1 :=
        Nat.exists_eq_add_one.mpr (by simp at hfuel; omega)
      refine spells_operators_step (power?_connective op) hpower (spells_logical op hoperand)
        (leads_links rest) fun facts hfacts => ?_
      rw [List.foldl_cons, ← show facts.truth = op.truth left.truth x.truth from hfacts]
      exact ih (fun link hmem => h link (List.mem_cons_of_mem _ hmem)) (by simpa using hfuel) facts

lemma length_le_flatMap (links : List (Connective × Operand)) :
    links.length ≤ (links.flatMap fun link => link.1.symbol :: link.2.symbols).length := by
  induction links with
  | nil => exact le_rfl
  | cons link rest ih =>
      rw [List.flatMap_cons, List.length_append, List.length_cons, List.length_cons]
      omega

/-- A chain of readable operands is an expression, and its truth is folded from the left. -/
lemma ReadableChain.spells (h : ReadableChain names least c)
    (hpower : power.rank < Power.logical.rank) (hdepth : least ≤ depth) :
    Spells names (exprWithin (depth + 2) power) c.symbols Ends (HasTruth c.truth) := by
  refine (h.1.spells (depth + 1) (by omega)).bind leads_anything fun left hleft => ?_
  refine .bound fun fuel hfuel => ?_
  have hlength : c.links.length ≤ fuel := (length_le_flatMap c.links).trans hfuel
  rw [truth, ← show left.truth = c.first.truth from hleft]
  exact spells_links hpower hdepth h.2 hlength left

/-- A chain in parentheses is a readable operand. -/
lemma ReadableChain.inParens (h : ReadableChain names least c) :
    Readable names (least + 2) c.inParens := by
  refine ⟨⟨_, _, rfl, nofun, nofun⟩, fun depth hdepth => ?_⟩
  obtain ⟨depth, rfl⟩ : ∃ n, depth = n + 2 := ⟨depth - 2, by omega⟩
  refine spells_grouped (fun s hs => castAhead?_run ?_) (h.spells (by decide) (by omega))
  obtain ⟨y, ys, heq, hname, harray⟩ := h.1.starts
  rw [Chain.symbols, heq] at hs
  rw [Cursor.kind_eq hs]
  exact Or.inl ⟨hname, harray⟩

lemma readable_laterRuns {links : List (Connective × Operand)}
    (h : ∀ link ∈ links, Readable names least link.2) :
    ∀ run ∈ laterRuns links, ReadableChain names least run := by
  induction links with
  | nil => exact fun _ hrun => absurd hrun List.not_mem_nil
  | cons link rest ih =>
      obtain ⟨op, x⟩ := link
      have hrest : ∀ link ∈ rest, Readable names least link.2 := fun link hmem =>
        h link (List.mem_cons_of_mem _ hmem)
      cases op with
      | and => exact ih hrest
      | or =>
          intro run hrun
          obtain rfl | hrun := List.mem_cons.mp hrun
          · exact ⟨h _ List.mem_cons_self, fun link hmem =>
              hrest link ((List.takeWhile_sublist _).subset hmem)⟩
          · exact ih hrest run hrun

lemma ReadableChain.grouped (h : ReadableChain names least c) :
    ReadableChain names (least + 2) c.grouped := by
  have hfirst : ReadableChain names least c.firstRun :=
    ⟨h.1, fun link hmem => h.2 link ((List.takeWhile_sublist _).subset hmem)⟩
  refine ⟨hfirst.inParens, fun link hmem => ?_⟩
  obtain ⟨run, hrun, rfl⟩ := List.mem_map.mp hmem
  exact (readable_laterRuns h.2 run hrun).inParens

/-- Where the chain stands before a token that is no operator, it is read as an expression, and its
truth is what is known. -/
def IsReadBack (c : Chain) (s : State) : Prop :=
  c.symbols <+: s.cursor.symbols → (s.cursor.past c.symbols.length).kind.power? = none →
    ∃ facts types, Check.expr .lowest s =
        .ok facts { s with cursor := s.cursor.past c.symbols.length, types := types } ∧
      facts.truth = c.truth

lemma ReadableChain.isReadBack {s : State} (h : ReadableChain names least c)
    (hnames : ∀ name ∈ names, (s.scope.lookup name).isSome) (hleast : least < c.symbols.length) :
    IsReadBack c s := by
  intro hsymbols hnext
  have hread : Spells names (Check.expr .lowest) c.symbols Ends (HasTruth c.truth) := by
    refine .bound fun fuel hfuel => ?_
    obtain ⟨depth, rfl⟩ : ∃ n, fuel = n + 1 := Nat.exists_eq_add_one.mpr (by omega)
    exact h.spells (by decide) (by omega)
  exact hread s hnames hsymbols hnext

/-- **Chains are grouped from the left.** A chain of truth values and declared variables is read as
an expression, without parentheses and with each longest run of conjunctions in parentheses. What is
found out about the truth is in both cases folded over the operands from the left. It is the same in
both if no conjunction stands after a disjunction. For all other sequences of connectives there are
truth values for which it is not the same. -/
theorem chains_group_from_left (first : Condition) (links : List (Connective × Condition))
    (s : State)
    (hvars : ∀ c ∈ first :: links.map (·.2), ∀ name ∈ c.name?,
      name ≠ "this" ∧ (s.scope.lookup name).isSome) :
    IsReadBack (ofConditions first links) s ∧ IsReadBack (ofConditions first links).grouped s ∧
      (ConjunctionsFirst (links.map (·.1)) →
        (ofConditions first links).grouped.truth = (ofConditions first links).truth) ∧
      (¬ConjunctionsFirst (links.map (·.1)) →
        ∃ (first' : Condition) (links' : List (Connective × Condition)),
          links'.map (·.1) = links.map (·.1) ∧
            (ofConditions first' links').grouped.truth ≠ (ofConditions first' links').truth) := by
  let names := (first :: links.map (·.2)).filterMap Condition.name?
  have hnames : ∀ name ∈ names, (s.scope.lookup name).isSome := by
    intro name hname
    obtain ⟨c, hc, hname⟩ := List.mem_filterMap.mp hname
    exact (hvars c hc name hname).2
  have hoperand : ∀ c ∈ first :: links.map (·.2), Readable names 0 c.operand := fun c hc =>
    readable_condition fun name hname =>
      ⟨List.mem_filterMap.mpr ⟨c, hc, hname⟩, (hvars c hc name hname).1⟩
  have hchain : ReadableChain names 0 (ofConditions first links) := by
    refine ⟨hoperand first List.mem_cons_self, fun link hmem => ?_⟩
    obtain ⟨link, hlink, rfl⟩ := List.mem_map.mp hmem
    exact hoperand link.2 (List.mem_cons_of_mem _ (List.mem_map_of_mem hlink))
  refine ⟨hchain.isReadBack hnames ?_, hchain.grouped.isReadBack hnames ?_, fun h => ?_,
    exists_truth_grouped_ne⟩
  · simp [Chain.symbols, ofConditions, Condition.operand]
  · simp [Chain.symbols, Chain.grouped, firstRun, Chain.inParens, ofConditions, Condition.operand,
      ScriptCheck.inParens]
  · exact truth_grouped_eq _ _ (by simpa [Function.comp_def] using h)

/-- The chain and the end of the file, where a variable is declared. -/
def beforeChain (c : Chain) : State where
  cursor := {
    file := "main"
    tokens := (c.symbols.map fun x => ⟨x.kind, x.value, 0, 0⟩).toArray.push ⟨.eof, "", 0, 0⟩ }
  scope := [("x", { type := .mixed, isAnnotated := false })]

/-- Nothing is known of a conjunction with a variable, nor of its disjunction with false. -/
theorem chains_group_from_left_variable :
    ∃ facts s', Check.expr .lowest
        (beforeChain (ofConditions (.var "x") [(.and, .holds), (.or, .fails)])) = .ok facts s' ∧
      s'.cursor.kind = .eof ∧ facts.truth = none := by
  obtain ⟨hread, -⟩ := chains_group_from_left (.var "x") [(.and, .holds), (.or, .fails)]
    (beforeChain (ofConditions (.var "x") [(.and, .holds), (.or, .fails)])) (by
      simp [Condition.name?, beforeChain])
  obtain ⟨facts, types, hrun, htruth⟩ := hread (by decide) (by decide)
  exact ⟨facts, _, hrun, rfl, htruth⟩

/-- A conjunction after a disjunction takes the disjunction as its operand: the chain is said to
fail, and with the conjunction in parentheses it is said to hold. -/
theorem conjunction_takes_disjunction :
    (result? (Check.expr .lowest (beforeChain
      (ofConditions .holds [(.or, .holds), (.and, .fails)])))).map (·.truth) = some (some false) ∧
    (result? (Check.expr .lowest (beforeChain
      (ofConditions .holds [(.or, .holds), (.and, .fails)]).grouped))).map (·.truth) =
        some (some true) := by
  decide +kernel

end Check

end ScriptCheck
