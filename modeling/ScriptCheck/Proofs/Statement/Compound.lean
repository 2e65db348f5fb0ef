import ScriptCheck.Proofs.Statement.Atoms

/-!
The readers of compound statements.

They take the reader of statements for what stands inside. If that one reads all trees with at most
so many symbols (`ReadsTrees`), it reads sequences of them (`parses_statements`), and the readers of
conditionals, loops, switches and guarded blocks read the trees of their form with one symbol more.
-/

namespace ScriptCheck

namespace Statement

/-- The kinds of the tokens that the statements of trees start with. -/
def startKinds : List Kind :=
  [.semicolon, .kwEcho, .openCurly, .kwIf, .kwWhile, .kwDo, .kwFor, .kwSwitch, .kwBreak,
    .kwContinue, .kwReturn, .kwExit, .kwTry]

lemma exists_symbols_cons (t : Statement) :
    ∃ x xs, t.symbols = x :: xs ∧ x.kind ∈ startKinds := by
  cases t with
  | jump way level => cases way <;> exact ⟨_, _, rfl, by decide⟩
  | _ => exact ⟨_, _, rfl, by decide⟩

/-- The kinds of the tokens that go on with a statement that might have ended. -/
def continuingKinds : List Kind := [.kwElse, .kwElseIf, .kwCatch, .kwFinally]

lemma not_mem_of_mem_startKinds :
    ∀ kind ∈ startKinds, kind ≠ .eof ∧ kind ∉ continuingKinds := by
  decide

/-- Whether a statement is complete before a token of the kind: a conditional is not before another
branch of it, nor a guarded block before another clause. -/
def EndsBefore : Statement → Kind → Prop
  | conditional .., kind => kind ∉ [.kwElse, .kwElseIf]
  | guarded .., kind => kind ∉ [.kwCatch, .kwFinally]
  | _, _ => True

lemma endsBefore_of_not_mem {kind : Kind} (h : kind ∉ continuingKinds) (t : Statement) :
    t.EndsBefore kind := by
  simp only [continuingKinds, List.mem_cons, List.not_mem_nil, or_false, not_or] at h
  cases t with
  | conditional => simp [EndsBefore, h]
  | guarded => simp [EndsBefore, h]
  | _ => trivial

end Statement

open Statement

namespace Check

variable {Γ : Setting} {stmt : StmtReader} {d : Nat}

/-- The reader reads the symbols of the tree in the setting and gives its exits. -/
def ReadsTree (reader : StmtReader) (Γ : Setting) (t : Statement) : Prop :=
  Parses Γ (Γ.declaring t.binds) reader t.symbols t.EndsBefore
    (· = t.exits Γ.classes Γ.classNamed?)

/-- The reader reads every tree that is well-formed in its setting and has at most so many
symbols. -/
def ReadsTrees (stmt : StmtReader) (d : Nat) : Prop :=
  ∀ (Γ : Setting) (t : Statement), t.WellFormed Γ → t.symbols.length ≤ d → ReadsTree stmt Γ t

/-! ### Sequences -/

/-- Kinds that end a sequence of statements. -/
def Closes (ends : List Kind) : Prop :=
  ∀ kind ∈ ends, kind ∉ startKinds ∧ kind ∉ continuingKinds

lemma closes_block : Closes [.closeCurly] := by
  unfold Closes
  decide

lemma closes_group : Closes [.kwCase, .kwDefault, .closeCurly] := by
  unfold Closes
  decide

lemma leads_sequence {ends : List Kind} (hends : Closes ends) (t : Statement)
    (body : List Statement) : Leads t.EndsBefore (· ∈ ends) (sequenceSymbols body) := by
  cases body with
  | nil => exact fun kind hkind => endsBefore_of_not_mem (hends kind hkind).2 t
  | cons next body =>
      obtain ⟨x, xs, hx, hstart⟩ := next.exists_symbols_cons
      rw [sequenceSymbols, hx]
      exact endsBefore_of_not_mem (not_mem_of_mem_startKinds _ hstart).2 t

lemma parses_statementsFrom (h : ReadsTrees stmt d) {ends : List Kind} (hends : Closes ends)
    {body : List Statement} (hbody : SequenceWellFormed Γ body)
    (hd : (sequenceSymbols body).length ≤ d) {fuel : Nat}
    (hfuel : (sequenceSymbols body).length < fuel) (before : Exits) (reported : Bool) :
    Parses Γ (Γ.declaring (sequenceBinds body)) (statementsFrom stmt ends fuel before reported)
      (sequenceSymbols body) (· ∈ ends)
      (· = sequenceExits Γ.classes Γ.classNamed? before body) := by
  -- the exits so far are carried along; whether unreachable code was reported does not matter
  induction body generalizing Γ fuel before reported with
  | nil =>
      cases fuel with
      | zero => omega
      | succ fuel =>
          rw [sequenceBinds, Setting.declaring_nil, sequenceSymbols]
          refine .kind (F := (· ∈ ends)) (fun _ h => h) fun kind hkind => ?_
          rw [if_pos (by simp [hkind])]
          exact .pure rfl
  | cons next body ih =>
      cases fuel with
      | zero => omega
      | succ fuel =>
          obtain ⟨x, xs, hx, hstart⟩ := next.exists_symbols_cons
          rw [sequenceSymbols, List.length_append] at hd hfuel
          have hpos : 0 < next.symbols.length := by simp [hx]
          have hrest : ∀ before reported, Parses (Γ.declaring next.binds)
              (Γ.declaring (next.binds ++ sequenceBinds body))
              (statementsFrom stmt ends fuel before reported) (sequenceSymbols body) (· ∈ ends)
              (· = sequenceExits Γ.classes Γ.classNamed? before body) := by
            rw [Setting.declaring_append]
            exact ih hbody.2 (by omega) (by omega)
          have hfirst : Leads (· ∈ startKinds) (· ∈ ends)
              (next.symbols ++ sequenceSymbols body) := by
            rw [hx]
            exact hstart
          rw [sequenceBinds, sequenceSymbols, sequenceExits]
          refine .kind hfirst fun kind hkind => ?_
          have hnot : ¬ (kind == .eof || ends.contains kind) = true := by
            have hne := (not_mem_of_mem_startKinds kind hkind).1
            have hmem : kind ∉ ends := fun hmem => (hends kind hmem).1 hkind
            simp [hne, hmem]
          rw [if_neg hnot]
          refine .peeks peeks_position fun start => .peeks peeks_declarationAhead fun _ => ?_
          refine (h Γ next hbody.1 (by omega)).bind (leads_sequence hends next body) ?_
          rintro _ rfl
          split
          case isTrue => exact hrest _ _
          case isFalse hstopped =>
            rw [Exits.andThen, if_neg hstopped]
            split
            · exact hrest _ _
            · exact .silent parses_reportUnreachable fun _ _ => hrest _ _

lemma parses_statements (h : ReadsTrees stmt d) {ends : List Kind} (hends : Closes ends)
    {body : List Statement} (hbody : SequenceWellFormed Γ body)
    (hd : (sequenceSymbols body).length ≤ d) :
    Parses Γ (Γ.declaring (sequenceBinds body)) (statements stmt ends) (sequenceSymbols body)
      (· ∈ ends) (· = sequenceExits Γ.classes Γ.classNamed? .passing body) :=
  .bound fun _ hfuel => parses_statementsFrom h hends hbody hd (Nat.lt_succ_of_le hfuel) _ _

lemma length_inBraces (symbols : List Symbol) :
    (inBraces symbols).length = symbols.length + 2 := by
  simp [inBraces]

lemma parses_block (h : ReadsTrees stmt d) {body : List Statement}
    (hbody : SequenceWellFormed Γ body) (hd : (sequenceSymbols body).length ≤ d) :
    Parses Γ (Γ.declaring (sequenceBinds body)) (block stmt) (inBraces (sequenceSymbols body))
      Anything (· = sequenceExits Γ.classes Γ.classNamed? .passing body) := by
  refine .require rfl nofun fun _ _ => ?_
  refine (parses_statements h closes_block hbody hd).bind (List.mem_singleton.mpr rfl) ?_
  exact fun exits hexits => .require rfl nofun fun _ _ => .pure hexits

/-- The body of a compound statement is itself a statement. -/
lemma parses_body (h : ReadsTrees stmt d) {body : List Statement}
    (hbody : SequenceWellFormed Γ body) (hd : (sequenceSymbols body).length + 2 ≤ d) :
    Parses Γ (Γ.declaring (sequenceBinds body)) stmt (inBraces (sequenceSymbols body)) Anything
      (· = sequenceExits Γ.classes Γ.classNamed? .passing body) :=
  h Γ (.block body) hbody (by rwa [symbols, length_inBraces])

/-! ### Conditionals -/

/-- The branches that may be taken in the end, if more branches and a last one follow. -/
def Branches.outcome (b : Branches) (more : List (Option Bool × Exits)) (last : Exits) :
    List Exits :=
  if b.isDecided then b.taken else b.taken ++ Statement.taken more last

lemma outcome_add (b : Branches) (facts : Facts) (body : Exits)
    (more : List (Option Bool × Exits)) (last : Exits) :
    (b.add facts body).outcome more last = b.outcome ((facts.truth, body) :: more) last := by
  obtain ⟨found, raises, isDecided⟩ := b
  cases isDecided with
  | true => simp [Branches.add, Branches.outcome]
  | false =>
      rcases htruth : facts.truth with _ | _ | _ <;>
        simp [Branches.add, Branches.outcome, htruth, Statement.taken]

lemma raises_add {facts : Facts} (h : facts.raises = ∅) (b : Branches) (body : Exits) :
    (b.add facts body).raises = b.raises := by
  rw [Branches.add]
  split <;> exact (congrArg (b.raises ∪ ·) h).trans NatSet.union_empty

lemma taken_addLast (b : Branches) (last : Exits) : (b.addLast last).taken = b.outcome [] last := by
  rw [Branches.addLast, Branches.outcome]
  split <;> rfl

/-- What is read after a branch. -/
def moreBranches (stmt : StmtReader) (fuel : Nat) (found : Branches) : Check Branches := do
  if ← takes .kwElseIf then branchesFrom stmt fuel found
  else return found

/-- A branch with its condition, and what is read after it. -/
lemma parses_branch (h : ReadsTrees stmt d) {Γ' : Setting} {c : Condition} {body : List Statement}
    (hc : c.IsDeclared Γ) (hbody : SequenceWellFormed Γ body)
    (hd : (sequenceSymbols body).length + 2 ≤ d) {fuel : Nat} {found : Branches}
    {ys : List Symbol} {G : Kind → Prop} {Q : Branches → Prop}
    (hrest : ∀ facts, IsOfCondition c facts → Parses (Γ.declaring (sequenceBinds body)) Γ'
      (moreBranches stmt fuel (found.add facts
        (sequenceExits Γ.classes Γ.classNamed? .passing body))) ys G Q) :
    Parses Γ Γ' (branchesFrom stmt (fuel + 1) found)
      (c.inParens ++ (inBraces (sequenceSymbols body) ++ ys)) G Q := by
  refine (parses_condition hc).bind leads_anything fun facts hfacts => ?_
  refine (parses_body h hbody hd).bind leads_anything ?_
  rintro _ rfl
  exact hrest facts hfacts

lemma parses_moreBranches (h : ReadsTrees stmt d) {others : List (Condition × List Statement)}
    (hothers : BranchesWellFormed Γ others) (hd : (branchSymbols others).length ≤ d) {fuel : Nat}
    (hfuel : (branchSymbols others).length ≤ fuel) (found : Branches) :
    Parses Γ (Γ.declaring (branchBinds others)) (moreBranches stmt fuel found)
      (branchSymbols others) (· ≠ .kwElseIf)
      fun b => b.raises = found.raises ∧ ∀ last, b.outcome [] last =
        found.outcome (branchExits Γ.classes Γ.classNamed? others) last := by
  -- `outcome` of what was found and what is still to come stays the same from branch to branch
  induction others generalizing Γ fuel found with
  | nil =>
      rw [branchBinds, Setting.declaring_nil, branchSymbols]
      exact .takes_not (fun _ h => h) (.pure ⟨rfl, fun _ => rfl⟩)
  | cons other others ih =>
      obtain ⟨c, body⟩ := other
      obtain ⟨hc, hbody, hothers⟩ := hothers
      simp only [branchSymbols, List.length_cons, List.length_append, length_inBraces] at hd hfuel
      rw [branchBinds, Setting.declaring_append, branchSymbols, branchExits]
      obtain ⟨fuel, rfl⟩ : ∃ k, fuel = k + 1 := ⟨fuel - 1, by omega⟩
      refine .takes rfl nofun (parses_branch h hc hbody (by omega) fun facts hfacts => ?_)
      refine (ih hothers (by omega) (by omega) _).mono (fun _ h => h) fun b hb => ?_
      refine ⟨?_, fun last => ?_⟩
      · rw [hb.1, raises_add hfacts.2]
      · rw [hb.2 last, outcome_add, hfacts.1]
        rfl

lemma raises_addLast (b : Branches) (last : Exits) : (b.addLast last).raises = b.raises := by
  rw [Branches.addLast]
  split <;> rfl

lemma parses_ifStatement (h : ReadsTrees stmt d) {c : Condition} {body : List Statement}
    {others : List (Condition × List Statement)} {last : Option (List Statement)}
    (hwf : (Statement.conditional c body others last).WellFormed Γ)
    (hd : (Statement.conditional c body others last).symbols.length ≤ d + 1) :
    ReadsTree (ifStatement stmt) Γ (.conditional c body others last) := by
  obtain ⟨hc, hbody, hothers, hlast⟩ := hwf
  simp only [symbols, List.length_cons, List.length_append, length_inBraces] at hd
  -- the first branch and those after it are read by one loop, and tell what may be taken
  -- whatever comes last
  have hbranches : ∀ fuel, (branchSymbols others).length ≤ fuel →
      Parses Γ ((Γ.declaring (sequenceBinds body)).declaring (branchBinds others))
        (branchesFrom stmt (fuel + 1) {})
        (c.inParens ++ (inBraces (sequenceSymbols body) ++ branchSymbols others)) (· ≠ .kwElseIf)
        fun b => b.raises = ∅ ∧ ∀ last, (b.addLast last).taken =
          taken ((c.truth, sequenceExits Γ.classes Γ.classNamed? .passing body) ::
            branchExits Γ.classes Γ.classNamed? others) last := by
    intro fuel hfuel
    refine parses_branch h hc hbody (by omega) fun facts hfacts => ?_
    refine (parses_moreBranches h hothers (by omega) hfuel _).mono (fun _ h => h) fun b hb => ?_
    refine ⟨by rw [hb.1, raises_add hfacts.2], fun last => ?_⟩
    rw [taken_addLast, hb.2 last, outcome_add, hfacts.1]
    rfl
  rw [ReadsTree, symbols, binds, exits]
  refine .require rfl nofun fun _ _ => ?_
  -- the branch at the end belongs to what is read after the loop
  have hsymbols : c.inParens ++ (inBraces (sequenceSymbols body) ++
      (branchSymbols others ++ lastSymbols .kwElse last)) =
      (c.inParens ++ (inBraces (sequenceSymbols body) ++ branchSymbols others)) ++
        lastSymbols .kwElse last := by
    simp only [List.append_assoc]
  rw [hsymbols, Setting.declaring_append, Setting.declaring_append]
  refine .bound fun fuel hfuel => ?_
  simp only [List.length_append] at hfuel
  refine (hbranches fuel (by omega)).bind ?_ fun b hb => ?_
  · cases last with
    | none => exact fun kind hkind helse => hkind (by simp [helse])
    | some body => exact nofun
  · have hresult : ∀ last,
        (Exits.oneOf (b.addLast last).taken).alsoRaising (b.addLast last).raises =
        .oneOf (taken ((c.truth, sequenceExits Γ.classes Γ.classNamed? .passing body) ::
          branchExits Γ.classes Γ.classNamed? others) last) := by
      intro last
      rw [raises_addLast, hb.1, alsoRaising_empty, hb.2 last]
    cases last with
    | none =>
        refine .takes_not (fun kind hkind helse => hkind (by simp [helse])) ?_
        rw [lastBinds, Setting.declaring_nil]
        exact .of_run (fun _ _ => rfl) (.pure (hresult _))
    | some lastBody =>
        simp only [lastSymbols, List.length_cons, length_inBraces] at hd
        refine .takes rfl nofun ?_
        rw [if_pos rfl]
        refine (parses_body h hlast (by omega)).bind_last (fun _ _ => trivial) ?_
        rintro _ rfl
        exact .pure (hresult _)

/-! ### Loops -/

lemma parses_loopExits {body : Exits} {truth : Option Bool} {start : Position} :
    Parses Γ Γ (loopExits body truth start) [] Anything
      (· = if truth = some false then .passing else body.loop truth) := by
  unfold loopExits
  split
  case isTrue hfails =>
    rw [if_pos (beq_iff_eq.mp hfails)]
    exact .silent parses_reportUnreachable fun _ _ => .pure rfl
  case isFalse hfails =>
    rw [if_neg (by simpa using hfails)]
    exact .pure rfl

lemma parses_whileStatement (h : ReadsTrees stmt d) {c : Condition} {body : List Statement}
    (hwf : (whileLoop c body).WellFormed Γ) (hd : (whileLoop c body).symbols.length ≤ d + 1) :
    ReadsTree (whileStatement stmt) Γ (.whileLoop c body) := by
  obtain ⟨hc, hbody⟩ := hwf
  simp only [symbols, List.length_cons, List.length_append, length_inBraces] at hd
  rw [ReadsTree, symbols, binds, exits]
  refine .require rfl nofun fun _ _ => ?_
  refine (parses_condition hc).bind leads_anything fun facts hfacts => ?_
  refine .peeks peeks_position fun start => ?_
  refine (parses_body h hbody (by omega)).inLoop.bind_last (fun _ _ => trivial) ?_
  rintro _ rfl
  refine .silent parses_loopExits fun exits hexits => .pure ?_
  rw [hexits, hfacts.1, hfacts.2, alsoRaising_empty]
  rfl

lemma parses_doStatement (h : ReadsTrees stmt d) {c : Condition} {body : List Statement}
    (hwf : (doLoop body c).WellFormed Γ) (hd : (doLoop body c).symbols.length ≤ d + 1) :
    ReadsTree (doStatement stmt) Γ (.doLoop body c) := by
  obtain ⟨hbody, hc⟩ := hwf
  simp only [symbols, List.length_cons, List.length_append, length_inBraces] at hd
  rw [ReadsTree, symbols, binds, exits]
  refine .require rfl nofun fun _ _ => ?_
  refine (parses_body h hbody (by omega)).inLoop.bind leads_anything ?_
  rintro _ rfl
  refine .require rfl nofun fun _ _ => ?_
  refine (parses_condition hc).bind leads_anything fun facts hfacts => ?_
  refine .require rfl nofun fun _ _ => .pure ?_
  rw [hfacts.1, hfacts.2, alsoRaising_empty]
  rfl

lemma parses_forStatement (h : ReadsTrees stmt d) {c : Condition} {body : List Statement}
    (hwf : (forLoop c body).WellFormed Γ) (hd : (forLoop c body).symbols.length ≤ d + 1) :
    ReadsTree (forStatement stmt) Γ (.forLoop c body) := by
  obtain ⟨hc, hbody⟩ := hwf
  simp only [symbols, List.length_cons, length_inBraces] at hd
  rw [ReadsTree, symbols, binds, exits]
  refine .require rfl nofun fun _ _ => .require rfl nofun fun _ _ => ?_
  refine (parses_exprs_none (y := .fixed .semicolon) rfl nofun).bind leads_anything ?_
  rintro _ rfl
  have hne : c.symbol.kind ≠ .semicolon := by cases c <;> nofun
  refine (parses_exprs_single (y := .fixed .semicolon) (parses_operand_condition hc) hne rfl
    (by decide)).bind leads_anything ?_
  rintro _ ⟨facts, rfl, hfacts⟩
  refine (parses_exprs_none (y := .fixed .closeParen) rfl nofun).bind leads_anything ?_
  rintro _ rfl
  refine .peeks peeks_position fun start => ?_
  refine (parses_body h hbody (by omega)).inLoop.bind_last (fun _ _ => trivial) ?_
  rintro _ rfl
  refine .silent parses_loopExits fun exits hexits => .pure ?_
  have hraises : allRaises ([] : List Facts) ∪ (allRaises [facts] ∪
      (if facts.truth == some false then ∅ else allRaises [])) = ∅ := by
    simp only [allRaises, List.foldr_cons, List.foldr_nil, hfacts.2, NatSet.union_empty, ite_self]
  rw [hexits]
  -- the only condition is the last one
  show (if facts.truth = some false then Exits.passing else Exits.loop _ facts.truth).alsoRaising
    (allRaises [] ∪ (allRaises [facts] ∪
      (if facts.truth == some false then ∅ else allRaises []))) = _
  rw [hraises, alsoRaising_empty, hfacts.1]
  rfl

/-! ### Switches -/

lemma parses_label (l : Label) (found : Groups) :
    Parses Γ Γ (label found) l.symbols (· = .colon) fun g => g.bodies = found.bodies ∧
      g.raises = found.raises ∧ g.hasDefault = (found.hasDefault || l.isDefault) := by
  cases l with
  | case value =>
      refine .first (.advance nofun fun _ _ => ?_)
      refine (parses_expr (parses_operand_literal · value)).bind_last ?_ fun facts hfacts => ?_
      · rintro kind rfl
        rfl
      · refine .pure ⟨rfl, ?_, (Bool.or_false _).symm⟩
        exact (congrArg (found.raises ∪ ·) hfacts.1).trans NatSet.union_empty
  | otherwise =>
      exact .first (.advance nofun fun _ _ => .pure ⟨rfl, rfl, (Bool.or_true _).symm⟩)

lemma leads_groups (groups : List (Label × List Statement)) :
    Leads (· ∈ [.kwCase, .kwDefault, .closeCurly]) (· = .closeCurly) (groupSymbols groups) := by
  cases groups with
  | nil =>
      rintro kind rfl
      decide
  | cons group groups =>
      obtain ⟨l, body⟩ := group
      rw [groupSymbols]
      cases l with
      | case value => exact .head _
      | otherwise => exact .tail _ (.head _)

lemma parses_groupsFrom (h : ReadsTrees stmt d) {groups : List (Label × List Statement)}
    (hgroups : GroupsWellFormed Γ groups) (hd : (groupSymbols groups).length ≤ d) {fuel : Nat}
    (hfuel : (groupSymbols groups).length < fuel) (found : Groups) :
    Parses Γ (Γ.declaring (groupBinds groups)) (groupsFrom stmt fuel found) (groupSymbols groups)
      (· = .closeCurly) fun g =>
        g.bodies = found.bodies ++ groupExits Γ.classes Γ.classNamed? groups ∧
        g.raises = found.raises ∧
        g.hasDefault = (found.hasDefault || groups.any (·.1.isDefault)) := by
  induction groups generalizing Γ fuel found with
  | nil =>
      cases fuel with
      | zero => omega
      | succ fuel =>
          rw [groupBinds, Setting.declaring_nil, groupSymbols]
          refine .kind (F := (· = .closeCurly)) (fun _ h => h) fun kind hkind => ?_
          rw [hkind, if_pos (by decide)]
          exact .pure ⟨(List.append_nil _).symm, rfl, (Bool.or_false _).symm⟩
  | cons group groups ih =>
      cases fuel with
      | zero => omega
      | succ fuel =>
          obtain ⟨l, body⟩ := group
          obtain ⟨hbody, hgroups⟩ := hgroups
          rw [groupSymbols] at hd hfuel ⊢
          simp only [List.length_append, List.length_cons] at hd hfuel
          rw [groupBinds, Setting.declaring_append, groupExits]
          have hlabel : Leads (· ≠ .closeCurly) (· = .closeCurly)
              (l.symbols ++ (.fixed .colon :: (sequenceSymbols body ++ groupSymbols groups))) := by
            cases l <;> nofun
          refine .kind hlabel fun kind hkind => ?_
          rw [if_neg (by simpa using hkind)]
          -- a colon follows the label, not the semicolon that may stand in its place
          refine (parses_label l found).bind rfl fun g hg => .takes_not nofun ?_
          refine .require rfl nofun fun _ _ => ?_
          refine (parses_statements h closes_group hbody (by omega)).bind (leads_groups groups) ?_
          rintro _ rfl
          refine (ih hgroups (by omega) (by omega) _).mono (fun _ h => h) fun g' hg' => ?_
          obtain ⟨hbodies, hraises, hdefault⟩ := hg'
          refine ⟨?_, hraises.trans hg.2.1, ?_⟩
          · rw [hbodies, hg.1, List.append_assoc]
            rfl
          · rw [hdefault, hg.2.2, List.any_cons, Bool.or_assoc]

lemma parses_switchStatement (h : ReadsTrees stmt d) {c : Condition}
    {groups : List (Label × List Statement)} (hwf : (switch c groups).WellFormed Γ)
    (hd : (switch c groups).symbols.length ≤ d + 1) :
    ReadsTree (switchStatement stmt) Γ (.switch c groups) := by
  obtain ⟨hc, hgroups⟩ := hwf
  simp only [symbols, List.length_cons, List.length_append, length_inBraces] at hd
  rw [ReadsTree, symbols, binds, exits]
  refine .require rfl nofun fun _ _ => ?_
  refine (parses_condition hc).bind leads_anything fun facts hfacts => ?_
  refine .require rfl nofun fun _ _ => ?_
  have hread := Parses.bound (f := fun fuel => groupsFrom stmt fuel {}) fun fuel hfuel =>
    parses_groupsFrom h hgroups (by omega) (Nat.lt_succ_of_le hfuel) {}
  refine hread.inLoop.bind rfl fun g hg => ?_
  obtain ⟨hbodies, hraises, hdefault⟩ := hg
  refine .require rfl nofun fun _ _ => .pure ?_
  rw [hbodies, hraises, hdefault, hfacts.2, NatSet.union_empty, alsoRaising_empty]
  rfl

/-! ### Exceptions -/

lemma parses_caughtTypes {name : String} {others : List String}
    (hnames : ∀ n ∈ name :: others, (Γ.classNamed? n).isSome) {fuel : Nat}
    (hfuel : others.length < fuel) (found : CaughtTypes) :
    Parses Γ Γ (caughtTypes fuel found) (⟨.name, name⟩ :: ClauseHead.otherSymbols others)
      (· ≠ .pipe)
      fun types => types.known = found.known ++ (name :: others).filterMap Γ.classNamed? := by
  induction fuel generalizing name others found with
  | zero => omega
  | succ fuel ih =>
      obtain ⟨id, hid⟩ := Option.isSome_iff_exists.mp (hnames name List.mem_cons_self)
      refine .require rfl nofun fun token htoken => ?_
      refine .of_run (fun s hs => classNamed?_of_fits hs) ?_
      rw [show token.value = name from congrArg Symbol.value htoken, hid,
        List.filterMap_cons_some hid]
      cases others with
      | nil => exact .takes_not (fun _ h => h) (.pure rfl)
      | cons other others =>
          refine .takes rfl nofun ?_
          have hothers : ∀ n ∈ other :: others, (Γ.classNamed? n).isSome :=
            fun n hn => hnames n (List.mem_cons_of_mem _ hn)
          refine (ih hothers (Nat.lt_of_succ_lt_succ hfuel) _).mono (fun _ h => h) ?_
          intro types hknown
          rw [hknown, List.append_assoc]
          rfl

lemma parses_caughtType (types : CaughtTypes) :
    Parses Γ Γ (caughtType types) [] Anything fun _ => True := by
  unfold caughtType
  split
  · split
    · exact parses_instanceType
    · exact parses_mixed
  · exact parses_mixed

lemma length_otherSymbols (names : List String) :
    (ClauseHead.otherSymbols names).length = 2 * names.length := by
  induction names with
  | nil => rfl
  | cons name names ih =>
      rw [ClauseHead.otherSymbols, List.length_cons, List.length_cons, ih, List.length_cons]
      omega

lemma parses_catchClause (h : ReadsTrees stmt d) {head : ClauseHead} {body : List Statement}
    (hnames : ∀ name ∈ head.names, (Γ.classNamed? name).isSome)
    (hbody : SequenceWellFormed (Γ.declaring [head.var]) body)
    (hd : (sequenceSymbols body).length ≤ d) :
    Parses Γ ((Γ.declaring [head.var]).declaring (sequenceBinds body)) (catchClause stmt)
      (head.symbols ++ inBraces (sequenceSymbols body)) Anything
      (· = ⟨head.names.filterMap Γ.classNamed?,
        sequenceExits Γ.classes Γ.classNamed? .passing body⟩) := by
  have hsymbols : head.symbols ++ inBraces (sequenceSymbols body) =
      .fixed .kwCatch :: .fixed .openParen :: ((⟨.name, head.name⟩ ::
        ClauseHead.otherSymbols head.others) ++ (⟨.var, head.var⟩ :: .fixed .closeParen ::
          inBraces (sequenceSymbols body))) := by
    simp [ClauseHead.symbols]
  rw [hsymbols]
  refine .require rfl nofun fun _ _ => .require rfl nofun fun _ _ => .bound fun fuel hfuel => ?_
  simp only [List.length_append, List.length_cons, length_otherSymbols] at hfuel
  refine (parses_caughtTypes hnames (by omega) {}).bind nofun fun types hknown => ?_
  refine .require rfl nofun fun token htoken => .require rfl nofun fun _ _ => ?_
  refine .silent (parses_caughtType types) fun type _ => ?_
  rw [show token.value = head.var from congrArg Symbol.value htoken]
  refine .silent parses_setVariable fun _ _ => ?_
  refine (parses_block h hbody hd).bind_last (fun _ _ => trivial) ?_
  rintro _ rfl
  exact .pure (by rw [hknown]; rfl)

lemma parses_catchClauses (h : ReadsTrees stmt d) {clauses : List (ClauseHead × List Statement)}
    (hclauses : ClausesWellFormed Γ clauses) (hd : (clauseSymbols clauses).length ≤ d) {fuel : Nat}
    (hfuel : (clauseSymbols clauses).length < fuel) :
    Parses Γ (Γ.declaring (clauseBinds clauses)) (catchClauses stmt fuel) (clauseSymbols clauses)
      (· ≠ .kwCatch) (· = handlers Γ.classes Γ.classNamed? clauses) := by
  induction clauses generalizing Γ fuel with
  | nil =>
      obtain ⟨fuel, rfl⟩ : ∃ k, fuel = k + 1 := ⟨fuel - 1, by omega⟩
      rw [clauseBinds, Setting.declaring_nil, clauseSymbols]
      refine .kind (F := (· ≠ .kwCatch)) (fun _ h => h) fun kind hkind => ?_
      rw [if_neg (by simpa using hkind)]
      exact .pure rfl
  | cons clause clauses ih =>
      obtain ⟨head, body⟩ := clause
      obtain ⟨hnames, hbody, hclauses⟩ := hclauses
      simp only [clauseSymbols, List.length_append, length_inBraces] at hd hfuel
      obtain ⟨fuel, rfl⟩ : ∃ k, fuel = k + 1 := ⟨fuel - 1, by omega⟩
      -- the variable of a clause is declared before its body is read
      have hbinds : clauseBinds ((head, body) :: clauses) =
          [head.var] ++ (sequenceBinds body ++ clauseBinds clauses) := rfl
      rw [hbinds, Setting.declaring_append, Setting.declaring_append, clauseSymbols, handlers,
        ← List.append_assoc]
      refine .kind (F := (· = .kwCatch)) rfl fun kind hkind => ?_
      rw [hkind, if_pos (by decide)]
      refine (parses_catchClause h hnames hbody (by omega)).bind leads_anything ?_
      rintro _ rfl
      refine (ih hclauses (by omega) (by omega)).bind_last (fun _ h => h) ?_
      rintro _ rfl
      exact .pure rfl

lemma parses_finalBlock? (h : ReadsTrees stmt d) {last : Option (List Statement)}
    (hlast : LastWellFormed Γ last) (hd : (lastSymbols .kwFinally last).length ≤ d) :
    Parses Γ (Γ.declaring (lastBinds last)) (finalBlock? stmt) (lastSymbols .kwFinally last)
      (· ≠ .kwFinally) (· = lastExits Γ.classes Γ.classNamed? last) := by
  cases last with
  | none =>
      rw [lastBinds, Setting.declaring_nil, lastSymbols]
      exact .takes_not (fun _ h => h) (.pure rfl)
  | some body =>
      simp only [lastSymbols, List.length_cons, length_inBraces] at hd
      refine .takes rfl nofun ?_
      rw [if_pos rfl]
      refine (parses_block h hlast (by omega)).bind_last (fun _ _ => trivial) ?_
      rintro _ rfl
      exact .pure rfl

lemma parses_tryStatement (h : ReadsTrees stmt d) {body : List Statement}
    {clauses : List (ClauseHead × List Statement)} {last : Option (List Statement)}
    (hwf : (guarded body clauses last).WellFormed Γ)
    (hd : (guarded body clauses last).symbols.length ≤ d + 1) :
    ReadsTree (tryStatement stmt) Γ (.guarded body clauses last) := by
  obtain ⟨hsome, hbody, hclauses, hlast⟩ := hwf
  simp only [symbols, List.length_cons, List.length_append, length_inBraces] at hd
  rw [ReadsTree, symbols, binds, exits, Setting.declaring_append, Setting.declaring_append]
  refine .require rfl nofun fun keyword _ => ?_
  refine (parses_block h hbody (by omega)).bind leads_anything ?_
  rintro _ rfl
  refine .bound fun fuel hfuel => ?_
  rw [List.length_append] at hfuel
  refine (parses_catchClauses h hclauses (by omega) (by omega)).bind ?_ ?_
  · cases last with
    | none => exact fun kind hkind hcatch => hkind (by simp [hcatch])
    | some body => exact nofun
  rintro _ rfl
  refine (parses_finalBlock? h hlast (by omega)).bind_last ?_ ?_
  · exact fun kind hkind hfinally => hkind (by simp [hfinally])
  rintro _ rfl
  have hnot : ¬ ((handlers Γ.classes Γ.classNamed? clauses).isEmpty &&
      (lastExits Γ.classes Γ.classNamed? last).isNone) = true := by
    cases clauses with
    | nil =>
        cases last with
        | none => simp at hsome
        | some body => simp [lastExits]
    | cons clause clauses => simp [handlers]
  extract_lets hnext
  split
  case isTrue hnone => exact absurd hnone hnot
  case isFalse => exact .of_run (fun s hs => classes_of_fits hs) (.pure rfl)

end Check

end ScriptCheck
