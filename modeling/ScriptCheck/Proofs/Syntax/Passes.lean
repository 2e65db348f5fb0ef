import ScriptCheck.Proofs.Analysis.Screening
import ScriptCheck.Proofs.Layout.Program
import ScriptCheck.Proofs.Syntax.Outer

/-!
The two readings of a file.

Declarations outside of braces are read ahead of the statements. The loop that looks for them passes
over the tokens one by one, and keeps count of the open braces only. It meets the same declarations as
the statements do, and no others, if no statement broke off and `class` stands nowhere outside of
braces after `::`. So it has then nothing to report about a token
(`declarations_report_no_token`).
-/

namespace ScriptCheck

open Relation

namespace Check

open Cursor

variable {known : ClassTable} {c d : Cursor} {s t u : State} {ids : List ClassId}
  {fuel depth : Nat}

/-! ### One iteration of the loop -/

/-- What starts at the cursor is found by its leading kind. -/
lemma declareHere_eq (s : State) :
    declareHere s = (if startsClass s.cursor.leadingKind = true then classAhead
      else if (s.cursor.leadingKind == .kwFunction && s.cursor.startsNamedFunction) = true then
        functionAhead >>= fun _ => pure none
      else pure none) s :=
  rfl

lemma declareHere_of_plain (h : s.cursor.startsDeclaration = false) :
    declareHere s = .ok none s := by
  rw [startsDeclaration, Bool.or_eq_false_iff] at h
  rw [declareHere_eq, if_neg (by simp [h.1]), if_neg (by simp [h.2])]
  rfl

/-- What the loop looks for at a token. -/
def declareAt (depth : Nat) : Check (Option ClassId) :=
  if depth = 0 then recover none declareHere else pure none

/-- How the loop goes on after a declaration: from where it ended, or else after one token. -/
inductive LoopsOn (depth : Nat) (s u t : State) : Prop
  | declared {fuel : Nat} {ids : List ClassId} (hdepth : depth = 0)
      (hmoved : u.cursor.index ≠ s.cursor.index) (hrun : declarationsFrom fuel 0 u = .ok ids t)
  | passed {fuel : Nat} {ids : List ClassId} (hstayed : depth = 0 → u.cursor.index = s.cursor.index)
      (hrun : declarationsFrom fuel (depthAfter depth u.cursor.kind)
        { u with cursor := u.cursor.advance } = .ok ids t)

lemma exists_of_declarationsFrom (hne : s.cursor.kind ≠ .eof)
    (hrun : declarationsFrom fuel depth s = .ok ids t) :
    ∃ found u, declareAt depth s = .ok found u ∧ LoopsOn depth s u t := by
  cases fuel with
  | zero => cases hrun
  | succ fuel =>
      rw [declarationsFrom, bind_of_ok (kind_run s),
        if_neg (by simpa using hne), bind_of_ok (cursor_run s)] at hrun
      have hrun' : (declareAt depth >>= fun found => do
          if depth = 0 && (← cursor).index != s.cursor.index then
            let rest ← declarationsFrom fuel depth
            return found.toList ++ rest
          else
            let token ← advance
            declarationsFrom fuel (depthAfter depth token.kind)) s = .ok ids t := by
        rw [declareAt]
        split at hrun
        case isTrue hdepth =>
          rw [if_pos hdepth]
          exact hrun
        case isFalse hdepth =>
          rw [if_neg hdepth]
          exact hrun
      obtain ⟨found, u, hfound, hrun'⟩ := exists_of_bind hrun'
      refine ⟨found, u, hfound, ?_⟩
      rw [bind_of_ok (cursor_run u)] at hrun'
      split at hrun'
      case isTrue hmoved =>
        obtain ⟨hdepth, hindex⟩ := Bool.and_eq_true_iff.mp hmoved
        obtain rfl : depth = 0 := by simpa using hdepth
        obtain ⟨rest, t', hrest, hrun'⟩ := exists_of_bind hrun'
        cases hrun'
        exact .declared rfl (by simpa using hindex) hrest
      case isFalse hstayed =>
        refine .passed (fun hdepth => ?_) hrun'
        simpa [hdepth] using hstayed

/-- A token is passed over, if no declaration starts there outside of braces. -/
lemma pass_token (hne : s.cursor.kind ≠ .eof)
    (hplain : depth = 0 → s.cursor.startsDeclaration = false)
    (hrun : declarationsFrom fuel depth s = .ok ids t) :
    ∃ fuel' ids', declarationsFrom fuel' (depthAfter depth s.cursor.kind)
      { s with cursor := s.cursor.advance } = .ok ids' t := by
  obtain ⟨found, u, hfound, hloop⟩ := exists_of_declarationsFrom hne hrun
  have hnone : declareAt depth s = .ok none s := by
    rw [declareAt]
    split
    case isTrue hdepth => exact recover_of_ok (declareHere_of_plain (hplain hdepth))
    case isFalse => rfl
  cases hnone.symm.trans hfound
  cases hloop with
  | declared _ hmoved _ => exact absurd rfl hmoved
  | passed _ hrun => exact ⟨_, _, hrun⟩

lemma pass_inner_token (hne : s.cursor.kind ≠ .eof)
    (hrun : declarationsFrom fuel (depth + 1) s = .ok ids t) :
    ∃ fuel' ids', declarationsFrom fuel' (depthAfter (depth + 1) s.cursor.kind)
      { s with cursor := s.cursor.advance } = .ok ids' t :=
  pass_token hne (fun h => absurd h (Nat.succ_ne_zero depth)) hrun

/-- Inside of braces nothing is looked at. -/
lemma pass_balanced (h : Balanced c d) (hc : c.IsProper) (hs : s.cursor = c)
    (hrun : declarationsFrom fuel (depth + 1) s = .ok ids t) :
    ∃ fuel' ids', declarationsFrom fuel' (depth + 1) { s with cursor := d } = .ok ids' t := by
  induction h generalizing s fuel ids depth with
  | refl c =>
      subst hs
      exact ⟨fuel, ids, hrun⟩
  | token hbrace _ ih =>
      subst hs
      obtain ⟨fuel₁, ids₁, hrun₁⟩ := pass_inner_token (ne_eof_of_not_isBrace hbrace) hrun
      rw [depthAfter_of_not_isBrace hbrace] at hrun₁
      exact ih (s := { s with cursor := s.cursor.advance }) hc.advance rfl hrun₁
  | @block c d e hopen hinside hclose _ ihinside ihrest =>
      subst hs
      have hd := (hinside.closeAt_eq hc.advance 1 le_rfl).1
      obtain ⟨fuel₁, ids₁, hrun₁⟩ := pass_inner_token (by simp [hopen]) hrun
      rw [hopen] at hrun₁
      obtain ⟨fuel₂, ids₂, hrun₂⟩ :=
        ihinside (s := { s with cursor := s.cursor.advance }) hc.advance rfl hrun₁
      obtain ⟨fuel₃, ids₃, hrun₃⟩ := pass_inner_token (by simp [hclose]) hrun₂
      rw [hclose] at hrun₃
      exact ihrest (s := { s with cursor := d.advance }) hd.advance rfl hrun₃

/-- A block is passed over. -/
lemma pass_block (hs : s.cursor.IsProper) (hopen : s.cursor.kind = .openCurly)
    (hinside : Balanced s.cursor.advance d) (hclose : d.kind = .closeCurly)
    (hrun : declarationsFrom fuel 0 s = .ok ids t) :
    ∃ fuel' ids', declarationsFrom fuel' 0 { s with cursor := d.advance } = .ok ids' t := by
  have hplain : s.cursor.startsDeclaration = false := by
    refine startsDeclaration_of_leadingKind ?_ ?_
    all_goals
      rw [leadingKind_eq (by simp [hopen]), hopen]
      decide
  obtain ⟨fuel₁, ids₁, hrun₁⟩ := pass_token (by simp [hopen]) (fun _ => hplain) hrun
  rw [hopen] at hrun₁
  obtain ⟨fuel₂, ids₂, hrun₂⟩ :=
    pass_balanced (s := { s with cursor := s.cursor.advance }) hinside hs.advance rfl hrun₁
  obtain ⟨fuel₃, ids₃, hrun₃⟩ := pass_inner_token (by simp [hclose]) hrun₂
  rw [hclose] at hrun₃
  exact ⟨fuel₃, ids₃, hrun₃⟩

/-- A declaration is read, and the loop goes on behind it. -/
lemma pass_declaration {found : Option ClassId} (hne : s.cursor.kind ≠ .eof)
    (hfound : declareHere s = .ok found u) (hmoved : u.cursor.index ≠ s.cursor.index)
    (hrun : declarationsFrom fuel 0 s = .ok ids t) :
    ∃ fuel' ids', declarationsFrom fuel' 0 u = .ok ids' t := by
  obtain ⟨found', u', hfound', hloop⟩ := exists_of_declarationsFrom hne hrun
  rw [declareAt, if_pos rfl, recover_of_ok hfound] at hfound'
  cases hfound'
  cases hloop with
  | declared _ _ hrun => exact ⟨_, _, hrun⟩
  | passed hstayed _ => exact absurd (hstayed rfl) hmoved

/-! ### Growth of the table -/

lemma grows_of_declarationsFrom (hs : s.cursor.IsProper)
    (hrun : declarationsFrom fuel depth s = .ok ids t) : s.env.classes.Grows t.env.classes := by
  have h := grows_of_agree hs (agree_declarationsFrom fuel depth)
  rwa [hrun] at h

/-- Whatever a declaration has added is there at the end. -/
lemma grows_of_declareHere (hs : s.cursor.IsProper) (hne : s.cursor.kind ≠ .eof)
    (hrun : declarationsFrom fuel 0 s = .ok ids t) :
    (endState (declareHere s)).env.classes.Grows t.env.classes := by
  obtain ⟨found, u, hfound, hloop⟩ := exists_of_declarationsFrom hne hrun
  rw [declareAt, if_pos rfl] at hfound
  have hu : u.cursor.IsProper := by
    have h := (fits_of_agree (m := recover none declareHere) hs (agree_declareHere.recover rfl)).proper
    rwa [hfound] at h
  have henv : (endState (declareHere s)).env = u.env := by
    obtain hhere | ⟨fault, u', hhere, -, rfl⟩ := exists_of_recover hfound
    · rw [hhere]
      rfl
    · rw [hhere]
      rfl
  rw [henv]
  cases hloop with
  | declared _ _ hrun => exact grows_of_declarationsFrom hu hrun
  | passed _ hrun => exact grows_of_declarationsFrom (s := { u with cursor := u.cursor.advance }) hu.advance hrun

/-! ### Steps of the loop -/

/-- The word `class` stands after `::` outside of braces. -/
def ShowsClassOutside (tokens : Array Token) : Prop :=
  ∃ i < tokens.size, (tokens[i]?).map (·.kind) = some .doubleColon ∧
    (tokens[i + 1]?).map (·.kind) = some .kwClass ∧ depthBefore tokens (i + 1) = 0

instance (tokens : Array Token) : Decidable (ShowsClassOutside tokens) :=
  inferInstanceAs (Decidable (∃ i < tokens.size, _))

lemma showsClassOutside_of_access (hc : c.IsProper) (hclass : c.kind = .kwClass)
    (hcolons : c.FollowsColons) (hdepth : c.depth = 0) : ShowsClassOutside c.tokens := by
  obtain ⟨i, hindex, hkind⟩ := hcolons
  have hinside := hc.inside
  have hnext : (c.tokens[i + 1]?).map (·.kind) = some .kwClass := by
    rw [← hindex, Array.getElem?_eq_getElem hinside, Option.map_some, ← current_eq hinside]
    exact congrArg some hclass
  exact ⟨i, by omega, hkind, hnext, hindex ▸ hdepth⟩

/-- The loop comes to a state, and no token is reported on the way. -/
def ComesTo (s t : State) (c : Cursor) : Prop :=
  ∃ fuel ids u, declarationsFrom fuel 0 u = .ok ids t ∧ u.cursor = c ∧ s.log.AddsNoToken u.log

lemma declareHere_of_function (hleads : s.cursor.leadingKind = .kwFunction)
    (hnamed : s.cursor.startsNamedFunction = true) :
    declareHere s = (functionAhead >>= fun _ => pure none) s := by
  rw [declareHere_eq, hleads, hnamed]
  rfl

lemma declareHere_of_class (hleads : startsClass s.cursor.leadingKind = true) :
    declareHere s = classAhead s := by
  rw [declareHere_eq, if_pos hleads]

lemma index_ne_of_consumes {α : Type} {m : Check α} {a : α} (hm : ∀ n, Consumes .statement n m)
    (hs : s.cursor.IsProper) (hrun : m s = .ok a u) : u.cursor.index ≠ s.cursor.index := by
  have h := hm _ s hs le_rfl
  rw [hrun] at h
  exact (h.2.2 trivial).ne'

lemma leadingKind_of_eof (h : c.kind = .eof) : c.leadingKind = .eof := by
  rw [leadingKind_eq (by simp [h]), h]

lemma comesTo_of_function {n : Nat} {s' t' : State} {b : Unit} (hs' : s'.cursor.IsProper)
    (hcursor : s.cursor = s'.cursor)
    (hleads : s.cursor.leadingKind = .kwFunction) (hnamed : s.cursor.startsNamedFunction = true)
    (hread : functionHere (stmtWithin n) s' = .ok b t') (hunbroken : t'.log.IsUnbroken)
    (hrun : declarationsFrom fuel 0 s = .ok ids t) : ComesTo s t t'.cursor := by
  have hstmt : Walks (⟨[]⟩ : ClassTable) Balanced (stmtWithin n) := walks_stmtWithin_balanced n
  obtain ⟨a, u, hahead, -, hechoes⟩ := (mirrors_functionAhead hstmt).echo s s' trivial hs' (.empty _)
    (.empty _) hcursor b t' hread fun _ => hunbroken
  have hfound : declareHere s = .ok none u := by
    rw [declareHere_of_function hleads hnamed, bind_of_ok hahead]
    rfl
  have hne : s.cursor.kind ≠ .eof := by
    intro heof
    rw [leadingKind_of_eof heof] at hleads
    cases hleads
  have hmoved := index_ne_of_consumes (fun _ => consumes_functionAhead) (hcursor ▸ hs') hahead
  obtain ⟨fuel', ids', hrun'⟩ := pass_declaration hne hfound hmoved hrun
  exact ⟨fuel', ids', u, hrun', hechoes.cursor, hechoes.quiet⟩

lemma comesTo_of_class {n : Nat} {s' t' : State} {h : OpenClass} (hs' : s'.cursor.IsProper)
    (hcursor : s.cursor = s'.cursor) (hleads : startsClass s.cursor.leadingKind = true)
    (hread : classDeclaration (some (stmtWithin n)) s' = .ok h t') (hunbroken : t'.log.IsUnbroken)
    (hrun : declarationsFrom fuel 0 s = .ok ids t) (hgrows : t.env.classes.Grows s'.env.classes) :
    ComesTo s t t'.cursor := by
  have hne : s.cursor.kind ≠ .eof := by
    intro heof
    rw [leadingKind_of_eof heof] at hleads
    cases hleads
  have hend : (endState (declareHere s)).env = (endState (classDeclaration none s)).env := by
    rw [declareHere_of_class hleads, classAhead]
    cases hclass : classDeclaration none s with
    | ok a u =>
        rw [bind_of_ok hclass]
        rfl
    | error e u =>
        rw [bind_of_error hclass]
        rfl
  have hadded := grows_of_declareHere (hcursor ▸ hs') hne hrun
  rw [hend] at hadded
  obtain ⟨h', u, hahead, hechoes⟩ := classDeclaration_echoes
    (fun _ => walks_stmtWithin_balanced n) hs' hcursor (hadded.trans hgrows) hread hunbroken
  obtain ⟨found, hclass⟩ : ∃ found, classAhead s = .ok found u :=
    ⟨_, by rw [classAhead, bind_of_ok hahead]; rfl⟩
  have hmoved := index_ne_of_consumes (fun _ => consumes_classAhead) (hcursor ▸ hs') hclass
  obtain ⟨fuel', ids', hrun'⟩ :=
    pass_declaration hne ((declareHere_of_class hleads).trans hclass) hmoved hrun
  exact ⟨fuel', ids', u, hrun', hechoes.cursor, hechoes.quiet⟩

/-- The loop goes by the steps of the statements. -/
lemma comesTo_of_step (hstep : OuterStep known c d) (hs : s.cursor = c) (hc : c.IsProper)
    (hdepth : c.depth = 0) (hnames : ¬ ShowsClassOutside c.tokens)
    (hrun : declarationsFrom fuel 0 s = .ok ids t) (hgrows : t.env.classes.Grows known) :
    ComesTo s t d := by
  subst hs
  cases hstep with
  | token hplain hbrace =>
      obtain ⟨fuel', ids', hrun'⟩ := pass_token (ne_eof_of_not_isBrace hbrace) (fun _ => hplain) hrun
      rw [depthAfter_of_not_isBrace hbrace] at hrun'
      exact ⟨fuel', ids', _, hrun', rfl, .refl _⟩
  | access hclass hcolons =>
      exact absurd (showsClassOutside_of_access hc hclass hcolons hdepth) hnames
  | block hopen hinside hclose =>
      obtain ⟨fuel', ids', hrun'⟩ := pass_block hc hopen hinside hclose hrun
      exact ⟨fuel', ids', _, hrun', rfl, .refl _⟩
  | @ofFunction n s' t' b hcursor _ hleads hnamed hread hunbroken =>
      exact comesTo_of_function (hcursor ▸ hc) hcursor.symm hleads hnamed hread hunbroken hrun
  | @ofClass n s' t' h hcursor hknown hleads hread hunbroken =>
      exact comesTo_of_class (hcursor ▸ hc) hcursor.symm hleads hread hunbroken hrun
        (hgrows.trans hknown)

/-- If the statements go through to the end, nothing about a token is reported ahead of them. -/
lemma addsNoToken_of_path (hpath : ReflTransGen (OuterStep known) c d) (hend : d.kind = .eof)
    (hs : s.cursor = c) (hc : c.IsProper) (hdepth : c.depth = 0)
    (hnames : ¬ ShowsClassOutside c.tokens) (hrun : declarationsFrom fuel 0 s = .ok ids t)
    (hgrows : t.env.classes.Grows known) : s.log.AddsNoToken t.log := by
  induction hpath using ReflTransGen.head_induction_on generalizing s fuel ids with
  | refl =>
      cases fuel with
      | zero => cases hrun
      | succ fuel =>
          rw [declarationsFrom, bind_of_ok (kind_run s), hs,
            if_pos (beq_iff_eq.mpr hend)] at hrun
          cases hrun
          exact .refl _
  | head hstep _ ih =>
      obtain ⟨hd, honward, -⟩ := (hstep.balanced hc).closeAt_eq hc 1 le_rfl
      obtain ⟨fuel', ids', u, hrun', hu, hquiet⟩ :=
        comesTo_of_step hstep hs hc hdepth hnames hrun hgrows
      have hdepth' := ((hstep.balanced hc).depth_eq hc).trans hdepth
      exact hquiet.trans (ih hu hd hdepth' (honward.tokens ▸ hnames) hrun')

end Check

/-! ### The two readings of a file -/

/-- The state in which the statements are read, with an empty log, so that it gets only what the
statements report themselves. -/
def State.beforeStatements (declared : State) : State :=
  { declared with cursor := declared.cursor.moveTo 0, log := { least := declared.log.least } }

/-- If no statement broke off, the declarations ahead of them have reported nothing about a token. -/
lemma Check.addsNoToken_of_declarations {s declared analyzed : State} {exits : Exits}
    (hs : s.cursor.IsProper) (hnames : ¬ ShowsClassOutside s.cursor.tokens)
    (hdeclared : declarations s = .ok () declared)
    (hanalyzed : statements stmt [] declared.beforeStatements = .ok exits analyzed)
    (hunbroken : analyzed.log.IsUnbroken) : s.log.AddsNoToken declared.log := by
  have hfits := fits_of_agree hs agree_declarations
  rw [hdeclared] at hfits
  have hcursor : declared.cursor.moveTo 0 = s.cursor.moveTo 0 := by
    rw [Cursor.moveTo, Cursor.moveTo, show declared.cursor.tokens = s.cursor.tokens from hfits.tokens,
      show declared.cursor.file = s.cursor.file from hfits.file]
  obtain ⟨_, r, hrewind, hrun⟩ := exists_of_bind hdeclared
  cases hrewind
  obtain ⟨fuel, r, hbound, hrun⟩ := exists_of_bind hrun
  cases hbound
  obtain ⟨ids, t, hloop, hcheck⟩ := exists_of_bind hrun
  obtain ⟨_, _, hcheck', hstays⟩ := (steady_checkAllInheritance Extent.statement_ne ids).rests t
  cases hcheck'.symm.trans hcheck
  -- the statements go through to the end, in the table that the declarations leave
  have hwalks : Walks declared.env.classes (OuterStep declared.env.classes) (statements stmt []) :=
    walks_statements walks_stmt_outer []
  obtain ⟨-, -, hpath⟩ :=
    hwalks declared.beforeStatements trivial hfits.proper.moveTo_zero (.refl _)
  have hend : analyzed.cursor.kind = .eof :=
    (kind_of_statementsFrom _ hanalyzed).resolve_right List.not_mem_nil
  have hquiet := addsNoToken_of_path (hpath exits analyzed hanalyzed fun _ => hunbroken) hend
    (s := { s with cursor := s.cursor.moveTo 0 }) hcursor.symm hfits.proper.moveTo_zero rfl
    (by rw [show declared.beforeStatements.cursor = s.cursor.moveTo 0 from hcursor]; exact hnames)
    hloop hstays.grows
  exact hquiet.trans hstays.quiet

/-- **The declarations report no token that the statements take.** For every source and all options
the declarations are read ahead, and then the statements. If the word `class` stands nowhere outside
of braces after `::`, and no statement broke off, then nothing about a token was reported ahead. -/
theorem declarations_report_no_token (source file : String) (options : Options)
    (tokens : List Token) (hscan : scan file source.toList = .ok tokens)
    (hnames : ¬ Check.ShowsClassOutside tokens.toArray) :
    ∃ declared exits analyzed,
      Check.declarations (Check.enteredClasses (State.start file tokens options)) =
        .ok () declared ∧
      Check.statements Check.stmt [] declared.beforeStatements = .ok exits analyzed ∧
      (analyzed.log.IsUnbroken → ∀ d ∈ declared.log.entries, ¬ d.IsAboutToken) := by
  have hcursor : (Check.enteredClasses (State.start file tokens options)).cursor =
      { file := file, tokens := tokens.toArray } := Check.cursor_start file tokens options
  have hstart : (Check.enteredClasses (State.start file tokens options)).cursor.IsProper := by
    rw [hcursor]
    exact (isLayout_of_scan hscan).isProper file
  obtain ⟨declared, hdeclared, -, hproper⟩ := Check.exists_declarations hstart
  obtain ⟨exits, analyzed, hanalyzed, -⟩ :=
    Check.exists_statements (s := declared.beforeStatements) hproper.moveTo_zero
  refine ⟨declared, exits, analyzed, hdeclared, hanalyzed, fun hunbroken d hd htoken => ?_⟩
  have hquiet := Check.addsNoToken_of_declarations hstart (by rwa [hcursor]) hdeclared hanalyzed
    hunbroken
  have hempty : (Check.enteredClasses (State.start file tokens options)).log.entries = [] :=
    congrArg Log.entries (Check.log_start file tokens options)
  have hold := hquiet d hd htoken
  rw [hempty] at hold
  cases hold

/-- A class, an annotated variable, and `class` after `::` inside of braces. -/
def innerClassName : String :=
  "class A \x7b \x7d /*. int .*/ $x = 1; function f() \x7b echo A::class; \x7d f();"

/-- The reports of the declarations of some tokens, and those of their statements alone. -/
def readingReports (tokens : List Token) : List Diagnostic × List Diagnostic :=
  let declared :=
    Check.endState (Check.declarations (Check.enteredClasses (State.start "main" tokens {})))
  let analyzed := Check.endState (Check.statements Check.stmt [] declared.beforeStatements)
  (declared.log.entries, analyzed.log.entries)

/-- The statements report nothing, so nothing about a token is reported ahead. -/
theorem declarations_report_no_token_innerClassName :
    ∃ tokens declared, scan "main" innerClassName.toList = .ok tokens ∧
      Check.declarations (Check.enteredClasses (State.start "main" tokens {})) = .ok () declared ∧
      ∀ d ∈ declared.log.entries, ¬ d.IsAboutToken := by
  obtain ⟨tokens, hscan, hnames, hreports⟩ : ∃ tokens, scan "main" innerClassName.toList = .ok tokens ∧
      ¬ Check.ShowsClassOutside tokens.toArray ∧ (readingReports tokens).2 = [] :=
    ⟨_, rfl, by decide +kernel, by decide +kernel⟩
  obtain ⟨declared, exits, analyzed, hdeclared, hanalyzed, hquiet⟩ :=
    declarations_report_no_token innerClassName "main" {} tokens hscan hnames
  have hlog : (readingReports tokens).2 = analyzed.log.entries := by
    rw [readingReports, hdeclared]
    change (Check.endState (Check.statements Check.stmt [] declared.beforeStatements)).log.entries = _
    rw [hanalyzed]
    rfl
  refine ⟨tokens, declared, hscan, hdeclared, hquiet fun fault _ hmem => ?_⟩
  rw [← hlog, hreports] at hmem
  cases hmem

/-- The labels of the reports of the declarations, and of the statements alone. -/
def readingLabels (source : String) : List (Option String) × List (Option String) :=
  match scan "main" source.toList with
  | .error _ => ([], [])
  | .ok tokens =>
      ((readingReports tokens).1.map (·.label), (readingReports tokens).2.map (·.label))

/-- The statements take `class` after `::` for the name of a constant, and an annotation in which
`class` stands is passed over as a whole. The declarations ahead of them take either for the start of
a class, and report the token after it. -/
theorem class_is_taken_for_declaration :
    readingLabels "class A \x7b \x7d echo A::class;" = ([some "UnexpectedTokenDetailed"], []) ∧
      readingLabels "/*. int class .*/ $x = 1;" =
        ([some "UnexpectedTokenDetailed"], [some "InvalidAnnotation"]) := by
  decide +kernel

end ScriptCheck
