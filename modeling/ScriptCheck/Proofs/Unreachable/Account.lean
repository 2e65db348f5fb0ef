import ScriptCheck.Proofs.Analysis.Screening
import ScriptCheck.Proofs.Flow.Laws
import ScriptCheck.Proofs.Syntax.Mirror
import ScriptCheck.Proofs.Unreachable.Outline
import ScriptCheck.Proofs.Unreachable.Silence

/-!
Outlines that account for what is read and reported.

`Told` says of two states that the tokens between them are those of some parts, and that the code
which was reported as unreachable is the code in these parts that is never run. A reader of outlines
goes with a reader of the analysis (`Outlines`) if it does the same, and if its parts tell what
happened as long as nothing broke off. There is a rule for each way in which readers are put
together. Only two of them are about reports: a list of statements (`Outlines.statements`) and the
body of a loop (`Outlines.loopBody`).
-/

namespace ScriptCheck

/-! ### Parts of parts -/

namespace Outline

lemma allIn_append (parts parts' : List Part) :
    allIn (parts ++ parts') = allIn parts ++ allIn parts' := by
  induction parts with
  | nil => rfl
  | cons part parts ih => rw [List.cons_append, allIn, allIn, ih, List.append_assoc]

lemma allIn_singleton (part : Part) : allIn [part] = part.all :=
  List.append_nil _

lemma printed_append (parts parts' : List Part) :
    printed (parts ++ parts') = printed parts ++ printed parts' :=
  List.flatMap_append

lemma printed_cons {part : Part} {parts : List Part} (h : part.tokens = []) :
    printed (part :: parts) = printed parts := by
  rw [printed, List.flatMap_cons, h]
  rfl

lemma reports_append {parts parts' : List Part} {d : Diagnostic} :
    Reports (parts ++ parts') d ↔ Reports parts d ∨ Reports parts' d := by
  simp only [Reports, List.mem_append, or_and_right, exists_or]

lemma reports_cons {part : Part} {parts : List Part} {d : Diagnostic} :
    Reports (part :: parts) d ↔
      (∃ position, part.NeverRuns position ∧ d = .unreachableAt position) ∨ Reports parts d := by
  simp only [Reports, List.mem_cons, or_and_right, exists_or, exists_eq_left]

lemma folded_concat (items : List Outline) (item : Outline) :
    folded (items ++ [item]) = (folded items).andThen item.exits := by
  rw [folded, List.map_append, List.foldl_append]
  rfl

/-- The first statement in a list that is never run and whose place matters, after other
statements. -/
def firstUnreached? (before : List Outline) : List Outline → Option Outline
  | [] => none
  | item :: items =>
      if isUnreached before item then some item else firstUnreached? (before ++ [item]) items

/-- The statement is the first one of this kind, after other statements. -/
lemma firstUnreached?_eq_some_iff {before items : List Outline} {item : Outline} :
    firstUnreached? before items = some item ↔
      ∃ pre post, items = pre ++ item :: post ∧ isUnreached (before ++ pre) item = true ∧
        ∀ pre' item' post', items = pre' ++ item' :: post' → pre'.length < pre.length →
          isUnreached (before ++ pre') item' = false := by
  induction items generalizing before with
  | nil =>
      refine ⟨nofun, ?_⟩
      rintro ⟨pre, post, hsplit, -⟩
      exact absurd hsplit (by simp)
  | cons first items ih =>
      rw [firstUnreached?]
      by_cases hfirst : isUnreached before first = true
      · rw [if_pos hfirst]
        -- the first one is it, and there is nothing before it
        constructor
        · rintro ⟨⟩
          exact ⟨[], items, rfl, by rwa [List.append_nil], fun _ _ _ _ hlt => nomatch hlt⟩
        · rintro ⟨pre, post, hsplit, -, hnone⟩
          cases pre with
          | nil => rw [(List.cons.inj hsplit).1]
          | cons other pre =>
              have hno := hnone [] first items rfl (Nat.succ_pos _)
              rw [List.append_nil, hfirst] at hno
              cases hno
      -- it is one of the others: they stand after one statement more
      · rw [if_neg hfirst, ih]
        constructor
        · rintro ⟨pre, post, rfl, hitem, hnone⟩
          refine ⟨first :: pre, post, rfl, by rwa [List.append_cons], ?_⟩
          intro pre' item' post' hsplit hlt
          cases pre' with
          | nil =>
              rw [← (List.cons.inj hsplit).1, List.append_nil]
              exact Bool.eq_false_iff.mpr hfirst
          | cons other pre' =>
              obtain ⟨rfl, hrest⟩ := List.cons.inj hsplit
              rw [List.append_cons]
              exact hnone pre' item' post' hrest (Nat.lt_of_succ_lt_succ hlt)
        · rintro ⟨pre, post, hsplit, hitem, hnone⟩
          cases pre with
          | nil =>
              rw [← (List.cons.inj hsplit).1, List.append_nil] at hitem
              exact absurd hitem hfirst
          | cons other pre =>
              obtain ⟨rfl, rfl⟩ := List.cons.inj hsplit
              rw [List.append_cons] at hitem
              refine ⟨pre, post, rfl, hitem, fun pre' item' post' hsplit hlt => ?_⟩
              rw [← List.append_cons]
              exact hnone (first :: pre') item' post' (by rw [hsplit]; rfl) (Nat.succ_lt_succ hlt)

lemma isFirstUnreached_iff {items : List Outline} {item : Outline} :
    IsFirstUnreached items item ↔ firstUnreached? [] items = some item :=
  (@firstUnreached?_eq_some_iff [] items item).symm

end Outline

namespace Check

open Outline

variable {α β : Type} {m : Check α} {f : α → Check β} {s s' s'' : State}
  {part : Outline.Part} {parts parts' : List Outline.Part}

/-! ### What parts tell -/

/-- Code that is never run is reported, and such reports are kept. -/
structure Watches (s : State) : Prop where
  asked : s.options.reportsUnreachable = true
  kept : s.log.least.rank ≤ Severity.warning.rank

/-- The second state is reached by reading the tokens of the parts, and the code that is reported as
unreachable on the way is that in the parts which is never run. -/
structure Told (s : State) (parts : List Outline.Part) (s' : State) : Prop where
  proper : s'.cursor.IsProper
  onward : s.cursor.Onward s'.cursor
  printed : Outline.printed parts = s.cursor.taken s'.cursor
  reports : ∀ d, d ∈ s'.log.unreachable ↔ d ∈ s.log.unreachable ∨ Reports parts d

lemma Told.nil (hs : s.cursor.IsProper) : Told s [] s where
  proper := hs
  onward := .refl _
  printed := (Cursor.taken_self _).symm
  reports d := by simp [Reports]

lemma Told.trans (h : Told s parts s') (h' : Told s' parts' s'') :
    Told s (parts ++ parts') s'' where
  proper := h'.proper
  onward := h.onward.trans h'.onward
  printed := by
    rw [printed_append, h.printed, h'.printed, ← Cursor.taken_append h.onward h'.onward]
  reports d := by
    rw [h'.reports, h.reports, or_assoc, reports_append]

/-- Nothing is told of what is read silently but its tokens. -/
lemma Silently.told (h : Silently s s') :
    Told s [.symbols (s.cursor.taken s'.cursor)] s' where
  proper := h.proper
  onward := h.onward
  printed := List.append_nil _
  reports d := by
    rw [h.unreachable]
    simp [Reports, Outline.Part.NeverRuns]

/-- A part that stands for others and has no code of its own which is never run. -/
lemma Told.cons (h : Told s parts s')
    (htokens : part.tokens = []) (hnone : ∀ position, ¬ part.NeverRuns position) :
    Told s (part :: parts) s' where
  proper := h.proper
  onward := h.onward
  printed := (printed_cons htokens).trans h.printed
  reports d := by
    rw [h.reports, reports_cons]
    simp [hnone]

lemma reportUnreachable_run (h : Watches s) {position : Position} :
    reportUnreachable position s = .ok () { s with
      log := s.log.addFault ⟨.unreachableCode, position⟩ } := by
  rw [reportUnreachable, bind_of_ok (get_run s), if_pos h.asked]
  rfl

/-- A report that is asked for is kept. -/
lemma mem_unreachable_report (h : Watches s) (position : Position) (d : Diagnostic) :
    d ∈ (s.log.addFault ⟨.unreachableCode, position⟩).unreachable ↔
      d ∈ s.log.unreachable ∨ d = .unreachableAt position := by
  have hkept : s.log.least.rank ≤ (Diagnostic.unreachableAt position).severity.rank := h.kept
  rw [Log.mem_unreachable_iff, Log.mem_unreachable_iff, Log.mem_addFault_iff]
  constructor
  · rintro ⟨hd | ⟨rfl, -⟩, hlabel⟩
    · exact .inl ⟨hd, hlabel⟩
    · exact .inr rfl
  · rintro (⟨hd, hlabel⟩ | rfl)
    · exact ⟨.inl hd, hlabel⟩
    · exact ⟨.inr ⟨rfl, hkept⟩, rfl⟩

/-- A part that stands for others, with a report of its own. -/
lemma Told.report {position : Position} (h : Told s parts s')
    (hw : Watches s') (htokens : part.tokens = [])
    (hpart : ∀ other, part.NeverRuns other ↔ other = position) :
    Told s (part :: parts)
      { s' with log := s'.log.addFault ⟨.unreachableCode, position⟩ } where
  proper := h.proper
  onward := h.onward
  printed := (printed_cons htokens).trans h.printed
  reports d := by
    rw [mem_unreachable_report hw, h.reports, reports_cons, or_assoc, or_comm (b := d = _)]
    simp [hpart]

end Check

/-! ### Readers that go together -/

open Check

variable {α β : Type} {o : Outliner α} {p : α → Outliner β} {m : Check α} {f : α → Check β}
  {s s' s'' : State}

lemma Check.within_map (enter : State → State) (leave : State → State → State) (g : α → β)
    (m : Check α) : within enter leave (g <$> m) = g <$> within enter leave m := by
  funext s
  rw [map_eq_pure_bind, map_eq_pure_bind]
  cases hrun : m (enter s) with
  | ok a t =>
      have hwithin : within enter leave m s = .ok a (leave s t) := by rw [within, hrun]
      rw [bind_of_ok hwithin, within, bind_of_ok hrun]
      rfl
  | error e t =>
      have hwithin : within enter leave m s = .error e (leave s t) := by rw [within, hrun]
      rw [bind_of_error hwithin, within, bind_of_error hrun]

lemma Check.exists_of_map {g : α → β} {b : β} (h : (g <$> m) s = .ok b s') :
    ∃ a, m s = .ok a s' ∧ b = g a := by
  rw [map_eq_pure_bind] at h
  obtain ⟨a, t, hrun, hpure⟩ := exists_of_bind h
  cases hpure
  exact ⟨a, hrun, rfl⟩

namespace Outliner

lemma reading_of_ok {x : Outlined α} (h : o.run s = .ok x s') :
    o.reading s = .ok x.value s' := by
  rw [reading, map_eq_pure_bind, bind_of_ok h]
  rfl

lemma reading_of_error {e : Halt} (h : o.run s = .error e s') : o.reading s = .error e s' := by
  rw [reading, map_eq_pure_bind, bind_of_error h]

lemma reading_bind (o : Outliner α) (p : α → Outliner β) :
    (o >>= p).reading = o.reading >>= fun a => (p a).reading := by
  show Outlined.value <$> (o.run >>= fun first => (p first.value).run >>= fun second =>
    pure (⟨second.value, first.parts ++ second.parts⟩ : Outlined β)) = _
  simp only [reading, map_eq_pure_bind, bind_assoc, pure_bind]

lemma noted_run {a : α} (h : m s = .ok a s') :
    (noted m).run s = .ok ⟨a, [.symbols (s.cursor.taken s'.cursor)]⟩ s' :=
  (bind_of_ok (cursor_run s)).trans (bind_of_ok h)

lemma reading_noted (m : Check α) : (noted m).reading = m := by
  funext s
  cases hrun : m s with
  | ok a t => exact reading_of_ok (noted_run hrun)
  | error e t =>
      exact reading_of_error ((bind_of_ok (cursor_run s)).trans (bind_of_error hrun))

end Outliner

lemma Check.Composed.watches {w : Extent} {a : α} (h : Composed w m) (hrun : m s = .ok a s')
    (hs : Watches s) : Watches s' := by
  have hsame := h.context s
  rw [hrun] at hsame
  exact ⟨(congrArg _ hsame.options).trans hs.asked, (congrArg _ hsame.least).trans_le hs.kept⟩

lemma Check.Composed.isUnbroken {w : Extent} {a : α} (h : Composed w m) (hrun : m s = .ok a s')
    (hs' : s'.log.IsUnbroken) : s.log.IsUnbroken := by
  have hprefix := h.entries_prefix s
  rw [hrun] at hprefix
  exact hs'.of_isPrefix hprefix

/-- The reader of outlines does what the other one does, and its parts tell what happened, if
nothing broke off. -/
structure Outlines (o : Outliner α) (m : Check α) : Prop where
  composed : Composed .statement m
  reading : o.reading = m
  tells : ∀ s x s', o.run s = .ok x s' → s.cursor.IsProper → Watches s → s'.log.IsUnbroken →
    Told s (Outline.allIn x.parts) s'

namespace Outlines

lemma ok {x : Outlined α} (h : Outlines o m) (hrun : o.run s = .ok x s') :
    m s = .ok x.value s' :=
  h.reading ▸ Outliner.reading_of_ok hrun

lemma pure {a : α} : Outlines (Pure.pure a) (Pure.pure a) where
  composed := .pure a
  reading := rfl
  tells s x s' hrun hs _ _ := by
    cases hrun
    exact .nil hs

lemma bind (ho : Outlines o m) (hp : ∀ a, Outlines (p a) (f a)) :
    Outlines (o >>= p) (m >>= f) where
  composed := ho.composed.bind fun a => (hp a).composed
  reading := by
    rw [Outliner.reading_bind, ho.reading]
    exact congrArg _ (funext fun a => (hp a).reading)
  tells s x s'' hrun hs hw hunbroken := by
    obtain ⟨first, s', hfirst, hrun⟩ := exists_of_bind hrun
    obtain ⟨second, t, hsecond, hrun⟩ := exists_of_bind hrun
    cases hrun
    have hmiddle := (hp _).composed.isUnbroken ((hp _).ok hsecond) hunbroken
    have htold := ho.tells s first s' hfirst hs hw hmiddle
    have hw' := ho.composed.watches (ho.ok hfirst) hw
    rw [Outline.allIn_append]
    exact htold.trans ((hp _).tells s' second _ hsecond htold.proper hw' hunbroken)

lemma ite {c : Prop} [Decidable c] {o' : Outliner α} {m' : Check α} (h : Outlines o m)
    (h' : Outlines o' m') : Outlines (if c then o else o') (if c then m else m') := by
  split
  · exact h
  · exact h'

/-- What reads no statements is taken over. -/
lemma noted (h : Composed .declaration m) : Outlines (.noted m) m where
  composed := h.widen (.inl rfl) nofun
  reading := Outliner.reading_noted m
  tells s x s' hrun hs _ _ := by
    have hm : m s = .ok x.value s' :=
      Outliner.reading_noted m ▸ Outliner.reading_of_ok hrun
    have hsilent := h.silent nofun hs
    rw [hm] at hsilent
    injection (Outliner.noted_run hm).symm.trans hrun with hx
    rw [← hx]
    exact hsilent.told

lemma after (h : Composed .declaration m) (hp : ∀ a, Outlines (p a) (f a)) :
    Outlines (Outliner.noted m >>= p) (m >>= f) :=
  (noted h).bind hp

lemma require {kind : Kind} {p : Token → Outliner β} {f : Token → Check β}
    (hp : ∀ token, Outlines (p token) (f token)) :
    Outlines (Outliner.noted (Check.require kind) >>= p) (Check.require kind >>= f) :=
  .after composed_require hp

/-- What is read in another context is told of as it is. -/
lemma within {enter : State → State} {leave : State → State → State} (h : Outlines o m)
    (hcomposed : Composed .statement (Check.within enter leave m))
    (henter : ∀ s, (enter s).cursor = s.cursor ∧ (enter s).log = s.log ∧
      (enter s).options = s.options)
    (hleave : ∀ s t, (leave s t).cursor = t.cursor ∧ (leave s t).log = t.log) :
    Outlines ⟨Check.within enter leave o.run⟩ (Check.within enter leave m) where
  composed := hcomposed
  reading := by
    rw [← h.reading]
    exact (within_map enter leave Outlined.value o.run).symm
  tells s x s' hrun hs hw hunbroken := by
    obtain ⟨t, hbody, rfl⟩ := exists_of_within hrun
    obtain ⟨hcursor, hlog, hoptions⟩ := henter s
    obtain ⟨hcursor', hlog'⟩ := hleave s t
    have htold := h.tells (enter s) x t hbody (hcursor ▸ hs)
      ⟨hoptions ▸ hw.asked, hlog ▸ hw.kept⟩ (hlog' ▸ hunbroken)
    obtain ⟨hproper, honward, hprinted, hreports⟩ := htold
    rw [hcursor] at honward hprinted
    rw [hlog] at hreports
    exact ⟨hcursor' ▸ hproper, hcursor' ▸ honward, hcursor' ▸ hprinted, hlog' ▸ hreports⟩

lemma inLoop (h : Outlines o m) : Outlines o.inLoop (Check.inLoop m) :=
  h.within (h.composed.inLoop (.inl rfl)) (fun _ => ⟨rfl, rfl, rfl⟩) fun _ _ => ⟨rfl, rfl⟩

lemma inRoutine (h : Outlines o m) (routine : Routine) :
    Outlines (o.inRoutine routine) (Check.inRoutine routine m) :=
  h.within (h.composed.inRoutine routine (.inl rfl)) (fun _ => ⟨rfl, rfl, rfl⟩) fun _ _ => ⟨rfl, rfl⟩

lemma inClass (h : Outlines o m) (id : ClassId) :
    Outlines (o.inClass id) (Check.inClass id m) :=
  h.within (h.composed.inClass id Extent.statement_ne) (fun _ => ⟨rfl, rfl, rfl⟩)
    fun _ _ => ⟨rfl, rfl⟩

/-- Where a reader broke off that is reported, so that nothing has to be told. -/
lemma recover (h : Outlines o m) (fallback : α) :
    Outlines (o.recover fallback) (Check.recover fallback m) where
  composed := h.composed.recover fallback
  reading := by
    funext s
    rw [← h.reading]
    cases hrun : o.run s with
    | ok x t =>
        rw [recover_of_ok (Outliner.reading_of_ok hrun)]
        exact Outliner.reading_of_ok (recover_of_ok hrun)
    | error e t =>
        cases e with
        | spent =>
            rw [recover_of_spent (Outliner.reading_of_error hrun)]
            exact Outliner.reading_of_error (recover_of_spent hrun)
        | fault fault =>
            rw [recover_of_fault (Outliner.reading_of_error hrun)]
            exact Outliner.reading_of_ok (o := o.recover fallback) (recover_of_fault hrun)
  tells s x s' hrun hs hw hunbroken := by
    obtain hbody | ⟨fault, t, hbody, -, rfl⟩ := exists_of_recover hrun
    · exact h.tells s _ _ hbody hs hw hunbroken
    · have hbroken := h.composed.breaksOff (h.reading ▸ Outliner.reading_of_error hbody)
      exact absurd (Log.ofFault_mem_addFault t.log hbroken.severity_eq) (hunbroken fault hbroken)

end Outlines

/-! ### Statements -/

/-- The reader of an outline does what the reader of a statement does. It notes where the statement
starts and what it declares, and its parts tell what happened, if nothing broke off. -/
structure ReadsItem (o : Check Outline) (m : StmtReader) : Prop where
  composed : Composed .statement m
  reading : Outline.exits <$> o = m
  place : ∀ s item s', o s = .ok item s' →
    item.start = s.cursor.position ∧ item.form = s.cursor.form
  tells : ∀ s item s', o s = .ok item s' → s.cursor.IsProper → Watches s → s'.log.IsUnbroken →
    Told s item.all s'

namespace ReadsItem

variable {o : Check Outline} {m : StmtReader} {item : Outline}

lemma ok (h : ReadsItem o m) (hrun : o s = .ok item s') : m s = .ok item.exits s' := by
  rw [← h.reading, map_eq_pure_bind, bind_of_ok hrun]
  rfl

lemma bodyOf (h : ReadsItem o m) : Outlines (.bodyOf o) m where
  composed := h.composed
  reading := by
    show Outlined.value <$> (o >>= fun item => Pure.pure (⟨item.exits, [.body item]⟩ :
      Outlined Exits)) = _
    rw [← h.reading]
    simp only [map_eq_pure_bind, bind_assoc, pure_bind]
  tells s x s' hrun hs hw hunbroken := by
    obtain ⟨item, t, hitem, hrun⟩ := exists_of_bind hrun
    cases hrun
    have htold := h.tells s item _ hitem hs hw hunbroken
    rw [Outline.allIn_singleton]
    exact htold.cons rfl fun _ => id

end ReadsItem

/-! ### Lists of statements -/

/-- A declaration is ahead if the place of the statement at the cursor does not matter. -/
lemma Check.declarationAhead_run (hs : s.cursor.IsProper) :
    declarationAhead s = .ok s.cursor.form.isHoisted s := by
  rw [declarationAhead, bind_of_ok (cursor_run s)]
  refine congrArg (EStateM.Result.ok · s) ?_
  have hfirst : (if (s.cursor.kind == .openNote) = true then Cursor.firstKind s.cursor.afterNote
      else s.cursor.kind) = Cursor.firstKind
        (if (s.cursor.kind == .openNote) = true then s.cursor.afterNote else s.cursor.rest) := by
    split
    · rfl
    · exact (Cursor.firstKind_rest hs).symm
  rw [Cursor.form, Cursor.startsNamedFunction, Cursor.kindAhead_zero hs, Cursor.kindAfterNote,
    hfirst]
  generalize (if (s.cursor.kind == .openNote) = true then s.cursor.afterNote
    else s.cursor.rest) = ahead
  cases startsClass (Cursor.firstKind ahead) <;> cases Cursor.firstKind ahead == .kwFunction <;>
    cases Cursor.firstKind (ahead.drop 1) == .name <;>
    cases Cursor.firstKind (ahead.drop 1) == .ampersand <;> rfl

/-- What is told of statements that are read after others. The first one that is never run is
reported, unless one has been reported before. -/
structure ItemsTold (before : List Outline) (reported : Bool) (s : State) (items : List Outline)
    (s' : State) : Prop where
  proper : s'.cursor.IsProper
  onward : s.cursor.Onward s'.cursor
  printed : Outline.printed (Outline.allOf items) = s.cursor.taken s'.cursor
  reports : ∀ d, d ∈ s'.log.unreachable ↔ d ∈ s.log.unreachable ∨
    (reported = false ∧ ∃ item, Outline.firstUnreached? before items = some item ∧
      d = .unreachableAt item.start) ∨ Outline.Reports (Outline.allOf items) d

namespace ItemsTold

variable {before items : List Outline} {item : Outline} {reported : Bool}

lemma nil (hs : s.cursor.IsProper) : ItemsTold before reported s [] s where
  proper := hs
  onward := .refl _
  printed := (Cursor.taken_self _).symm
  reports d := by simp [Outline.allOf, Outline.firstUnreached?, Outline.Reports]

/-- A statement that is run, or whose place does not matter, or that comes after the first one that
is never run. -/
lemma cons (h : Told s item.all s') (h' : ItemsTold (before ++ [item]) reported s' items s'')
    (hitem : Outline.isUnreached before item = false ∨ reported = true) :
    ItemsTold before reported s (item :: items) s'' where
  proper := h'.proper
  onward := h.onward.trans h'.onward
  printed := by
    rw [Outline.allOf, Outline.printed_append, h.printed, h'.printed,
      ← Cursor.taken_append h.onward h'.onward]
  reports d := by
    have hfirst : (reported = false ∧ ∃ first,
        Outline.firstUnreached? before (item :: items) = some first ∧
          d = .unreachableAt first.start) ↔
        reported = false ∧ ∃ first,
          Outline.firstUnreached? (before ++ [item]) items = some first ∧
            d = .unreachableAt first.start := by
      refine and_congr_right fun hnew => ?_
      have hno : ¬ Outline.isUnreached before item = true := by
        rcases hitem with hitem | hitem
        · rw [hitem]
          exact Bool.false_ne_true
        · rw [hnew] at hitem
          cases hitem
      rw [Outline.firstUnreached?, if_neg hno]
    rw [hfirst, h'.reports, h.reports, Outline.allOf, Outline.reports_append, or_assoc]
    exact or_congr_right or_left_comm

/-- The first statement that is never run. -/
lemma report (h : Told s item.all s') (hw : Watches s')
    (h' : ItemsTold (before ++ [item]) true
      { s' with log := s'.log.addFault ⟨.unreachableCode, item.start⟩ } items s'')
    (hitem : Outline.isUnreached before item = true) :
    ItemsTold before false s (item :: items) s'' where
  proper := h'.proper
  onward := h.onward.trans h'.onward
  printed := by
    rw [Outline.allOf, Outline.printed_append, h.printed, h'.printed,
      ← Cursor.taken_append h.onward h'.onward]
  reports d := by
    rw [h'.reports, mem_unreachable_report hw, h.reports, Outline.firstUnreached?, if_pos hitem,
      Outline.allOf, Outline.reports_append]
    simp only [Bool.true_eq_false, false_and, true_and, Option.some.injEq, exists_eq_left',
      false_or]
    rw [or_assoc, or_assoc]
    exact or_congr_right or_left_comm

end ItemsTold

namespace ReadsItem

variable {o : Check Outline} {m : StmtReader}

lemma reading_itemsFrom (h : ReadsItem o m) (ends : List Kind) (fuel : Nat) (exits : Exits)
    (reported : Bool) :
    Prod.fst <$> Outliner.itemsFrom o ends fuel exits reported =
      statementsFrom m ends fuel exits reported := by
  have hfst (next : Outline) (n : Check (Exits × List Outline)) :
      Prod.fst <$> Outliner.withItem next <$> n = Prod.fst <$> n := by
    rw [Functor.map_map]
    rfl
  have hm := h.reading
  subst hm
  induction fuel generalizing exits reported with
  | zero => rfl
  | succ fuel ih =>
      rw [Outliner.itemsFrom, statementsFrom, map_bind]
      refine congrArg _ (funext fun here => ?_)
      split
      · rfl
      · rw [map_bind]
        refine congrArg _ (funext fun start => ?_)
        rw [map_bind]
        refine congrArg _ (funext fun isDeclaration => ?_)
        rw [map_bind, bind_map_left]
        refine congrArg _ (funext fun next => ?_)
        split
        · rw [hfst, ih]
        · split
          · rw [hfst, ih]
          · rw [map_bind]
            refine congrArg _ (funext fun _ => ?_)
            rw [hfst, ih]

lemma ok_of_itemsFrom (h : ReadsItem o m) {ends : List Kind} {fuel : Nat} {exits : Exits}
    {reported : Bool} {found : Exits × List Outline}
    (hrun : Outliner.itemsFrom o ends fuel exits reported s = .ok found s') :
    statementsFrom m ends fuel exits reported s = .ok found.1 s' := by
  rw [← h.reading_itemsFrom, map_eq_pure_bind, bind_of_ok hrun]
  rfl

/-- What is told of a list of statements that is read after others, by induction over the bound. The
exits are those of all statements so far, and nothing is reported as long as they complete. -/
lemma tells_itemsFrom (h : ReadsItem o m) {ends : List Kind} {fuel : Nat} (before : List Outline)
    {reported : Bool} {found : Exits × List Outline}
    (hrun : Outliner.itemsFrom o ends fuel (Outline.folded before) reported s = .ok found s')
    (hs : s.cursor.IsProper) (hw : Watches s) (hunbroken : s'.log.IsUnbroken)
    (hreported : reported = true → (Outline.folded before).completes = false) :
    found.1 = Outline.folded (before ++ found.2) ∧ ItemsTold before reported s found.2 s' := by
  induction fuel generalizing before reported found s with
  | zero => cases hrun
  | succ fuel ih =>
      obtain ⟨here, _, hkind, hrun⟩ := exists_of_bind hrun
      cases hkind
      split at hrun
      · cases hrun
        exact ⟨by rw [List.append_nil], .nil hs⟩
      obtain ⟨start, _, hstart, hrun⟩ := exists_of_bind hrun
      cases hstart
      obtain ⟨isDeclaration, _, hahead, hrun⟩ := exists_of_bind hrun
      cases (declarationAhead_run hs).symm.trans hahead
      obtain ⟨next, s₁, hnext, hrun⟩ := exists_of_bind hrun
      obtain ⟨hplace, hform⟩ := h.place s next s₁ hnext
      have hw₁ := h.composed.watches (h.ok hnext) hw
      -- no report is taken back, so nothing was broken before the rest is read either
      have hunbroken₁ {s₂ : State} {exits : Exits} {isDone : Bool} {rest : Exits × List Outline}
          (hrest : Outliner.itemsFrom o ends fuel exits isDone s₂ = .ok rest s') :
          s₂.log.IsUnbroken :=
        (composed_statementsFrom h.composed ends fuel exits isDone).isUnbroken
          (h.ok_of_itemsFrom hrest) hunbroken
      split at hrun
      case isTrue hcompletes =>
        -- the statements before complete, so this one is run
        obtain ⟨rest, hrest, rfl⟩ := exists_of_map hrun
        have htold := h.tells s next s₁ hnext hs hw (hunbroken₁ hrest)
        rw [← Outline.folded_concat] at hrest
        have hnew : reported ≠ true := fun hold => by
          rw [hreported hold] at hcompletes
          cases hcompletes
        obtain ⟨hfound, hitems⟩ := ih _ hrest htold.proper hw₁ fun hold => absurd hold hnew
        have hreached : Outline.isUnreached before next = false := by
          rw [Outline.isUnreached, hcompletes]
          rfl
        exact ⟨by rw [Outliner.withItem, List.append_cons]; exact hfound,
          .cons htold hitems (.inl hreached)⟩
      case isFalse hstops =>
        have hstops := Bool.eq_false_iff.mpr hstops
        -- behind statements that do not complete, a further one changes no exits
        have hsame : Outline.folded (before ++ [next]) = Outline.folded before := by
          rw [Outline.folded_concat, Exits.andThen_of_not_completes hstops]
        rw [← hsame] at hrun
        split at hrun
        case isTrue hpassed =>
          obtain ⟨rest, hrest, rfl⟩ := exists_of_map hrun
          have htold := h.tells s next s₁ hnext hs hw (hunbroken₁ hrest)
          obtain ⟨hfound, hitems⟩ := ih _ hrest htold.proper hw₁ fun _ => hsame ▸ hstops
          refine ⟨by rw [Outliner.withItem, List.append_cons]; exact hfound,
            .cons htold hitems ?_⟩
          rcases (Bool.or_eq_true _ _).mp hpassed with hhoisted | hold
          · rw [Outline.isUnreached, hform, hhoisted]
            exact .inl (Bool.and_false _)
          · exact .inr hold
        case isFalse hmatters =>
          -- the first that is never run and is no declaration: the report is made here
          obtain ⟨hplain, hnew⟩ : s.cursor.form.isHoisted = false ∧ reported = false := by
            simpa using hmatters
          obtain ⟨_, s₂, hreport, hrun⟩ := exists_of_bind hrun
          have hw₂ := steady_reportUnreachable.composed.watches hreport hw₁
          cases (reportUnreachable_run hw₁).symm.trans hreport
          obtain ⟨rest, hrest, rfl⟩ := exists_of_map hrun
          have hunbroken₂ :=
            Log.IsUnbroken.of_isPrefix (hunbroken₁ hrest) (Log.entries_prefix_add s₁.log _)
          have htold := h.tells s next s₁ hnext hs hw hunbroken₂
          obtain ⟨hfound, hitems⟩ := ih _ hrest htold.proper hw₂ fun _ => hsame ▸ hstops
          subst hnew
          refine ⟨by rw [Outliner.withItem, List.append_cons]; exact hfound,
            .report htold hw₁ (hplace ▸ hitems) ?_⟩
          rw [Outline.isUnreached, hform, hstops, hplain]
          rfl

/-- In a list of statements the first one that is never run is reported. -/
lemma statements (h : ReadsItem o m) (ends : List Kind) :
    Outlines (.statements o ends) (Check.statements m ends) where
  composed := composed_statements h.composed ends
  reading := by
    show Outlined.value <$> (bound >>= fun fuel =>
      Outliner.itemsFrom o ends fuel .passing false >>= fun found =>
        Pure.pure (⟨found.1, [.list found.2]⟩ : Outlined Exits)) = _
    rw [Check.statements, map_bind]
    refine congrArg _ (funext fun fuel => ?_)
    rw [← h.reading_itemsFrom]
    simp only [map_eq_pure_bind, bind_assoc, pure_bind]
  tells s x s' hrun hs hw hunbroken := by
    obtain ⟨fuel, _, hbound, hrun⟩ := exists_of_bind hrun
    cases hbound
    obtain ⟨found, t, hitems, hrun⟩ := exists_of_bind hrun
    cases hrun
    obtain ⟨-, hproper, honward, hprinted, hreports⟩ :=
      h.tells_itemsFrom [] hitems hs hw hunbroken (absurd · Bool.false_ne_true)
    rw [Outline.allIn_singleton]
    refine ⟨hproper, honward, hprinted, fun d => (hreports d).trans (or_congr_right ?_)⟩
    rw [Outline.Part.all, Outline.reports_cons]
    refine or_congr_left ⟨?_, ?_⟩
    · rintro ⟨-, item, hfirst, rfl⟩
      exact ⟨item.start, ⟨item, Outline.isFirstUnreached_iff.mpr hfirst, rfl⟩, rfl⟩
    · rintro ⟨_, ⟨item, hfirst, rfl⟩, rfl⟩
      exact ⟨rfl, item, Outline.isFirstUnreached_iff.mp hfirst, rfl⟩

/-- Where a list of statements was read, its outline tells what happened. -/
lemma exists_items (h : ReadsItem o m) {ends : List Kind} {exits : Exits}
    (hrun : Check.statements m ends s = .ok exits s') (hs : s.cursor.IsProper) (hw : Watches s)
    (hunbroken : s'.log.IsUnbroken) :
    ∃ items, (Outliner.statements o ends).run s = .ok ⟨exits, [.list items]⟩ s' ∧
      exits = Outline.folded items ∧ Told s (Outline.allIn [.list items]) s' := by
  rw [← (h.statements ends).reading] at hrun
  obtain ⟨x, hx, rfl⟩ := exists_of_map hrun
  obtain ⟨fuel, _, hbound, hitems⟩ := exists_of_bind hx
  cases hbound
  obtain ⟨found, _, hitems, hpure⟩ := exists_of_bind hitems
  cases hpure
  obtain ⟨hexits, -⟩ := h.tells_itemsFrom [] hitems hs hw hunbroken (absurd · Bool.false_ne_true)
  exact ⟨found.2, hx, hexits, (h.statements ends).tells _ _ _ hx hs hw hunbroken⟩

/-- The body of a loop whose condition never holds is reported. -/
lemma loopBody (h : ReadsItem o m) (truth : Option Bool) :
    Outlines (.loopBody o truth) (do
      let start ← position
      let body ← Check.inLoop m
      loopExits body truth start) where
  composed := composed_position.bind fun start => (h.composed.inLoop (.inl rfl)).bind fun body =>
    steady_loopExits.composed
  reading := by
    show Outlined.value <$> (position >>= fun start => Check.inLoop o >>= fun item =>
      loopExits item.exits truth start >>= fun exits =>
        Pure.pure (⟨exits, [.loop truth item]⟩ : Outlined Exits)) = _
    rw [← h.reading, Check.inLoop, Check.inLoop, within_map]
    simp only [map_eq_pure_bind, bind_assoc, pure_bind, bind_pure]
  tells s x s' hrun hs hw hunbroken := by
    obtain ⟨start, _, hstart, hrun⟩ := exists_of_bind hrun
    cases hstart
    obtain ⟨item, s₁, hitem, hrun⟩ := exists_of_bind hrun
    obtain ⟨exits, s₂, hexits, hrun⟩ := exists_of_bind hrun
    cases hrun
    have hunbroken₁ := steady_loopExits.composed.isUnbroken hexits hunbroken
    obtain ⟨t, hbody, rfl⟩ := exists_of_within hitem
    obtain ⟨hplace, -⟩ := h.place _ _ _ hbody
    obtain ⟨hproper, honward, hprinted, hreports⟩ :=
      h.tells _ _ _ hbody hs ⟨hw.asked, hw.kept⟩ hunbroken₁
    -- the depth of loops is no part of what is told
    have htold : Told s item.all { t with loopDepth := s.loopDepth } :=
      ⟨hproper, honward, hprinted, hreports⟩
    have hw₁ : Watches { t with loopDepth := s.loopDepth } :=
      have hwt := h.composed.watches (h.ok hbody) ⟨hw.asked, hw.kept⟩
      ⟨hwt.asked, hwt.kept⟩
    rw [Outline.allIn_singleton]
    rw [loopExits] at hexits
    split at hexits
    case isTrue hfalse =>
      obtain ⟨_, _, hreport, hpassing⟩ := exists_of_bind hexits
      cases (reportUnreachable_run hw₁).symm.trans hreport
      cases hpassing
      refine htold.report hw₁ rfl fun position => ?_
      show truth = some false ∧ position = item.start ↔ _
      rw [hplace]
      exact and_iff_right (beq_iff_eq.mp hfalse)
    case isFalse hruns =>
      cases hexits
      refine htold.cons rfl fun position hposition => hruns ?_
      rw [hposition.1]
      rfl

end ReadsItem

end ScriptCheck
