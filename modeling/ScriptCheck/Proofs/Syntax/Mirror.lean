import ScriptCheck.Proofs.Analysis.Composed
import ScriptCheck.Proofs.Syntax.Path

/-!
What a reading of tokens takes, and readings of the same tokens in different states.

A reader breaks off where the tokens are not as they should be (`Cause.BreaksOff`); a fault is then
reported. What it takes from the cursor, if nothing is reported, does not depend on the rest of the
state, with one exception: whether a method needs a body depends on its class. `Walks` says by which
steps a reader goes through the tokens, and `Mirrors` says that a second reader goes the same way from
any other state with the same cursor in which some table of classes is known too.

A reader that passes over broken parts is only followed as long as nothing breaks off. Any other is
followed up to where it ends, also if it breaks off itself (`Tracking`).

Between the tokens, readers look names up and report. Such parts rest on the cursor (`Rests`), so
that it does not matter if two readings differ in them.
-/

namespace ScriptCheck

open Relation

/-- The report is about a token that should not be where it is. -/
def Diagnostic.IsAboutToken (d : Diagnostic) : Prop :=
  d.label = some "UnexpectedToken" ∨ d.label = some "UnexpectedTokenDetailed"

/-- No fault because of which a reader broke off is reported. -/
def Log.IsUnbroken (log : Log) : Prop :=
  ∀ fault : Fault, fault.cause.BreaksOff → .ofFault fault ∉ log.entries

/-- Every report about a token is an old one. -/
def Log.AddsNoToken (log log' : Log) : Prop :=
  ∀ d ∈ log'.entries, d.IsAboutToken → d ∈ log.entries

namespace Log

variable {log log' log'' : Log}

lemma IsUnbroken.of_isPrefix (h : log'.IsUnbroken) (hle : log.entries <+: log'.entries) :
    log.IsUnbroken :=
  fun fault hfault hmem => h fault hfault (hle.subset hmem)

lemma AddsNoToken.refl (log : Log) : log.AddsNoToken log := fun _ hd _ => hd

lemma AddsNoToken.trans (h : log.AddsNoToken log') (h' : log'.AddsNoToken log'') :
    log.AddsNoToken log'' :=
  fun d hd htoken => h d (h' d hd htoken) htoken

lemma AddsNoToken.addFault (h : log.AddsNoToken log') {fault : Fault}
    (hfault : fault.cause.isToken = false) : log.AddsNoToken (log'.addFault fault) := by
  intro d hd htoken
  rw [Log.addFault, add] at hd
  split at hd
  · exact h d hd htoken
  · rcases List.mem_append.mp hd with hd | hd
    · exact h d hd htoken
    · obtain ⟨cause, p⟩ := fault
      rw [List.mem_singleton.mp hd] at htoken
      cases cause <;> simp_all [Diagnostic.IsAboutToken, Diagnostic.ofFault, Cause.label, Cause.isToken]

lemma addsNoToken_foldl {faults : List Fault} (h : log.AddsNoToken log')
    (hfaults : ∀ fault ∈ faults, fault.cause.isToken = false) :
    log.AddsNoToken (faults.foldl addFault log') := by
  induction faults generalizing log' with
  | nil => exact h
  | cons fault faults ih =>
      obtain ⟨hfirst, hrest⟩ := List.forall_mem_cons.mp hfaults
      exact ih (h.addFault hfirst) hrest

end Log

lemma Cause.BreaksOff.severity_eq {cause : Cause} (h : cause.BreaksOff) :
    cause.severity = .error := by
  cases h <;> rfl

/-- How a reading is followed: which classes are known to it, and whether it is only followed as long
as nothing breaks off. -/
structure Tracking where
  known : ClassTable
  isStrict : Prop

namespace Tracking

instance : Coe ClassTable Tracking := ⟨fun known => ⟨known, True⟩⟩

/-- Nothing is known, and the reading is followed up to where it ends. -/
def free : Tracking := ⟨⟨[]⟩, False⟩

/-- What has been reported does not end the tracking. -/
def Goes (w : Tracking) (log : Log) : Prop := w.isStrict → log.IsUnbroken

variable {w : Tracking} {log log' : Log}

lemma Goes.of_isPrefix (h : w.Goes log') (hle : log.entries <+: log'.entries) : w.Goes log :=
  fun hstrict => (h hstrict).of_isPrefix hle

lemma goes_free (log : Log) : free.Goes log := False.elim

end Tracking

namespace Check

variable {α β γ δ : Type} {w : Tracking} {known : ClassTable} {P P' : Cursor → Prop}
  {step step' : Cursor → Cursor → Prop} {σ : α → γ} {τ : β → δ} {m n : Check α}
  {f g : α → Check β} {s s' s'' t t' : State}

/-! ### One state after another -/

/-- The second state is reached from the first by reading on. -/
structure Extends (s s' : State) : Prop where
  proper : s'.cursor.IsProper
  onward : s.cursor.Onward s'.cursor
  log : s.log.entries <+: s'.log.entries
  grows : s.env.classes.Grows s'.env.classes

/-- It is reached without reading. -/
structure Stays (s s' : State) : Prop where
  cursor : s'.cursor = s.cursor
  log : s.log.entries <+: s'.log.entries
  grows : s.env.classes.Grows s'.env.classes
  quiet : s.log.AddsNoToken s'.log

/-- It is reached by a reading of the same tokens, without a report about one. -/
structure Echoes (s s' t' : State) : Prop where
  cursor : s'.cursor = t'.cursor
  grows : s.env.classes.Grows s'.env.classes
  quiet : s.log.AddsNoToken s'.log

lemma Extends.refl (hs : s.cursor.IsProper) : Extends s s :=
  ⟨hs, .refl _, List.prefix_refl _, .refl _⟩

lemma Extends.trans (h : Extends s s') (h' : Extends s' s'') : Extends s s'' :=
  ⟨h'.proper, h.onward.trans h'.onward, h.log.trans h'.log, h.grows.trans h'.grows⟩

lemma Stays.refl (s : State) : Stays s s :=
  ⟨rfl, List.prefix_refl _, .refl _, .refl _⟩

lemma Stays.trans (h : Stays s s') (h' : Stays s' s'') : Stays s s'' :=
  ⟨h'.cursor.trans h.cursor, h.log.trans h'.log, h.grows.trans h'.grows, h.quiet.trans h'.quiet⟩

lemma Stays.extends (h : Stays s s') (hs : s.cursor.IsProper) : Extends s s' := by
  refine ⟨?_, ?_, h.log, h.grows⟩
  · rw [h.cursor]
    exact hs
  · rw [h.cursor]
    exact .refl _

/-! ### Resting computations -/

/-- The computation gives a result, and leaves the cursor where it is. -/
def Rests (m : Check α) : Prop :=
  ∀ s, ∃ a s', m s = .ok a s' ∧ Stays s s'

/-- The result has a property. -/
def RestsWith (Q : α → Prop) (m : Check α) : Prop :=
  ∀ s, ∃ a s', m s = .ok a s' ∧ Q a ∧ Stays s s'

lemma Rests.pure {a : α} : Rests (Pure.pure a : Check α) :=
  fun s => ⟨a, s, rfl, .refl s⟩

lemma Rests.bind (hm : Rests m) (hf : ∀ a, Rests (f a)) : Rests (m >>= f) := by
  intro s
  obtain ⟨a, s', hrun, hstays⟩ := hm s
  obtain ⟨b, s'', hrun', hstays'⟩ := hf a s'
  exact ⟨b, s'', (bind_of_ok hrun).trans hrun', hstays.trans hstays'⟩

lemma Rests.map (g : α → β) (hm : Rests m) : Rests (g <$> m) := by
  rw [map_eq_pure_bind]
  exact hm.bind fun a => .pure

lemma RestsWith.pure {Q : α → Prop} {a : α} (h : Q a) : RestsWith Q (Pure.pure a : Check α) :=
  fun s => ⟨a, s, rfl, h, .refl s⟩

lemma RestsWith.after {Q : β → Prop} (hm : Rests m) (hf : ∀ a, RestsWith Q (f a)) :
    RestsWith Q (m >>= f) := by
  intro s
  obtain ⟨a, s', hrun, hstays⟩ := hm s
  obtain ⟨b, s'', hrun', hb, hstays'⟩ := hf a s'
  exact ⟨b, s'', (bind_of_ok hrun).trans hrun', hb, hstays.trans hstays'⟩

lemma RestsWith.rests {Q : α → Prop} (h : RestsWith Q m) : Rests m := by
  intro s
  obtain ⟨a, s', hrun, -, hstays⟩ := h s
  exact ⟨a, s', hrun, hstays⟩

lemma Peeks.rests (h : Peeks m) : Rests m := by
  intro s
  obtain ⟨a, hrun⟩ := h s
  exact ⟨a, s, hrun, .refl s⟩

/-- A computation that does not move gives a result where it is. -/
lemma Steady.rests (h : Steady .statement m) : Rests m := by
  generalize Extent.statement = w at h
  induction h with
  | pure a => exact .pure
  | bind _ _ ihm ihf => exact ihm.bind ihf
  | look g => exact fun s => ⟨g s.bare, s, rfl, .refl s⟩
  | reportBy _ hquiet =>
      exact fun s => ⟨(), _, rfl, rfl, entries_prefix_foldl_addFault _ _, .refl _,
        Log.addsNoToken_foldl (.refl _) (hquiet _ _)⟩
  | compile descriptor => exact fun s => ⟨_, _, rfl, rfl, List.prefix_refl _, .refl _, .refl _⟩
  | declareNew name type isAnnotated =>
      intro s
      rw [Check.declareNew]
      split
      · exact ⟨(), _, rfl, rfl, List.prefix_refl _, .refl _, .refl _⟩
      · exact ⟨(), s, rfl, .refl s⟩
  | setVariable name type isAnnotated _ =>
      exact fun s => ⟨(), _, rfl, rfl, List.prefix_refl _, .refl _, .refl _⟩
  | changeEnv g _ hgrows =>
      exact fun s => ⟨_, _, rfl, rfl, List.prefix_refl _, hgrows s.env, .refl _⟩
  | markChecked id _ => exact fun s => ⟨(), _, rfl, rfl, List.prefix_refl _, .refl _, .refl _⟩

/-! ### Steps through the tokens -/

/-- The words after which any token is taken. -/
def anyNext : List Kind := [.arrow, .doubleColon, .kwNew, .kwAbstract, .kwFinal]

/-- The token before the cursor is such a word. -/
def AfterWord (c : Cursor) : Prop := ∃ word ∈ anyNext, c.After word

lemma afterWord_advance {c : Cursor} (hc : c.IsProper) (h : c.kind ∈ anyNext) :
    AfterWord c.advance := by
  refine ⟨c.kind, h, Cursor.after_advance hc fun heof => ?_⟩
  rw [heof] at h
  revert h
  decide

/-- The second cursor is reached by the steps. The last token may be any one, after a word after which
any token is taken. -/
inductive Strays (step : Cursor → Cursor → Prop) (c : Cursor) : Cursor → Prop
  | path {d : Cursor} (h : ReflTransGen step c d) : Strays step c d
  | token {d : Cursor} (h : ReflTransGen step c d) (hafter : AfterWord d) : Strays step c d.advance

lemma Strays.mono {c d : Cursor} (h : Strays step c d) (hstep : ∀ {c d}, step c d → step' c d) :
    Strays step' c d := by
  cases h with
  | path h => exact .path (ReflTransGen.mono (fun _ _ => hstep) _ _ h)
  | token h hafter => exact .token (ReflTransGen.mono (fun _ _ => hstep) _ _ h) hafter

lemma Strays.after {c d e : Cursor} (h : ReflTransGen step c d) (h' : Strays step d e) :
    Strays step c e := by
  cases h' with
  | path h' => exact .path (h.trans h')
  | token h' hafter => exact .token (h.trans h') hafter

/-- From a state whose cursor has the property, the reader goes on through the tokens. As far as it is
followed, it has gone by the steps if it gives a result; if it breaks off, it may have taken one token
more. -/
def WalksAt (P : Cursor → Prop) (w : Tracking) (step : Cursor → Cursor → Prop) (n : Check α) :
    Prop :=
  ∀ s, P s.cursor → s.cursor.IsProper → w.known.Grows s.env.classes →
    Extends s (endState (n s)) ∧
    (∀ fault t, n s = .error (.fault fault) t →
      fault.cause.BreaksOff ∧ (¬w.isStrict → Strays step s.cursor t.cursor)) ∧
    ∀ b t, n s = .ok b t → w.Goes t.log → ReflTransGen step s.cursor t.cursor

/-- The reader goes by the steps from any state. -/
abbrev Walks (w : Tracking) (step : Cursor → Cursor → Prop) (n : Check α) : Prop :=
  WalksAt (fun _ => True) w step n

/-- From another state with the same cursor the first reader goes where the second one goes, and their
results have the same content. -/
structure MirrorsAt (P : Cursor → Prop) (w : Tracking) (step : Cursor → Cursor → Prop)
    (σ : α → γ) (m n : Check α) : Prop where
  walks : WalksAt P w step n
  echo : ∀ s s', P s'.cursor → s'.cursor.IsProper → w.known.Grows s.env.classes →
    w.known.Grows s'.env.classes → s.cursor = s'.cursor → ∀ b t', n s' = .ok b t' →
    w.Goes t'.log → ∃ a t, m s = .ok a t ∧ σ a = σ b ∧ Echoes s t t'

/-- The readers go the same way from any two states with the same cursor. -/
abbrev Mirrors (w : Tracking) (step : Cursor → Cursor → Prop) (σ : α → γ) (m n : Check α) :
    Prop :=
  MirrorsAt (fun _ => True) w step σ m n

/-- Nothing of a result matters. -/
def nothing (_ : α) : Unit := ()

namespace WalksAt

lemma mono (h : WalksAt P w step n) (hstep : ∀ {c d}, step c d → step' c d) :
    WalksAt P w step' n := by
  intro s hP hs hknown
  obtain ⟨hextends, hfault, hpath⟩ := h s hP hs hknown
  exact ⟨hextends, fun fault t hrun => (hfault fault t hrun).imp_right fun hstrays hfree =>
    (hstrays hfree).mono hstep, fun b t hrun hgoes =>
    ReflTransGen.mono (fun _ _ => hstep) _ _ (hpath b t hrun hgoes)⟩

/-- The result alone may tell the way that the reader has gone. -/
lemma along (h : Walks known step n)
    (hpath : ∀ s b t, P s.cursor → s.cursor.IsProper → known.Grows s.env.classes → n s = .ok b t →
      t.log.IsUnbroken → ReflTransGen step' s.cursor t.cursor) : WalksAt P known step' n := by
  intro s hP hs hknown
  obtain ⟨hextends, hfault, -⟩ := h s trivial hs hknown
  exact ⟨hextends, fun fault t hrun => ⟨(hfault fault t hrun).1, absurd trivial⟩,
    fun b t hrun hgoes => hpath s b t hP hs hknown hrun (hgoes trivial)⟩

lemma strengthen (h : WalksAt P w step n) (hP : ∀ c, P' c → P c) :
    WalksAt P' w step n :=
  fun s hs => h s (hP _ hs)

/-- A reader that goes from every state goes from those in which more is known. -/
lemma weaken {known' : ClassTable} (h : WalksAt P w step n) (hknown : w.known.Grows known') :
    WalksAt P { w with known := known' } step n :=
  fun s hP hs hknown' => h s hP hs (hknown.trans hknown')

/-- What holds anywhere holds here. -/
lemma here (h : Walks w step n) : WalksAt P w step n :=
  h.strengthen fun _ _ => trivial

lemma of_rests (h : Rests n) : WalksAt P w step n := by
  intro s _ hs _
  obtain ⟨a, t, hrun, hstays⟩ := h s
  rw [hrun]
  refine ⟨hstays.extends hs, (fun _ _ h => nomatch h), fun b t' h _ => ?_⟩
  cases h
  rw [hstays.cursor]

lemma pure {a : α} : WalksAt P w step (Pure.pure a : Check α) :=
  .of_rests .pure

lemma spent : WalksAt P w step (throw .spent : Check α) :=
  fun _ _ hs _ => ⟨.refl hs, (fun _ _ h => nomatch h), fun _ _ h => nomatch h⟩

/-- What holds of the cursor after the first reader is known to the second. -/
lemma bindAt {Q : α → Cursor → Prop} (hn : WalksAt P w step n)
    (hpost : ∀ s b t, P s.cursor → s.cursor.IsProper → n s = .ok b t → Q b t.cursor)
    (hg : ∀ b, WalksAt (Q b) w step (g b)) : WalksAt P w step (n >>= g) := by
  intro s hP hs hknown
  obtain ⟨hextends, hfault, hpath⟩ := hn s hP hs hknown
  cases hrun : n s with
  | error e t =>
      rw [hrun] at hextends hfault
      rw [bind_of_error hrun]
      refine ⟨hextends, fun fault t' h => ?_, fun _ _ h => nomatch h⟩
      cases h
      exact hfault _ _ rfl
  | ok b t =>
      rw [hrun] at hextends
      rw [bind_of_ok hrun]
      obtain ⟨hextends', hfault', hpath'⟩ :=
        hg b t (hpost s b t hP hs hrun) hextends.proper (hknown.trans hextends.grows)
      refine ⟨hextends.trans hextends', fun fault t' hrun' => ?_, fun b' t' hrun' hgoes => ?_⟩
      · refine (hfault' fault t' hrun').imp_right fun hstrays hfree => ?_
        exact .after (hpath b t hrun fun hstrict => absurd hstrict hfree) (hstrays hfree)
      · rw [hrun'] at hextends'
        exact (hpath b t hrun (hgoes.of_isPrefix hextends'.log)).trans (hpath' b' t' hrun' hgoes)

lemma bind (hn : WalksAt P w step n) (hg : ∀ b, Walks w step (g b)) :
    WalksAt P w step (n >>= g) :=
  hn.bindAt (Q := fun _ _ => True) (fun _ _ _ _ _ _ => trivial) hg

/-- The reader rests before it goes on, and what it does then depends on the table. -/
lemma restAt (hn : ∀ s, w.known.Grows s.env.classes → ∃ b t, n s = .ok b t ∧ Stays s t ∧
      WalksAt P { w with known := t.env.classes } step (g b)) :
    WalksAt P w step (n >>= g) := by
  intro s hP hs hknown
  obtain ⟨b, t, hrun, hstays, hg⟩ := hn s hknown
  have hextends := hstays.extends hs
  rw [← hstays.cursor] at hP
  obtain ⟨hextends', hgoesOn⟩ := hg t hP hextends.proper (.refl _)
  rw [bind_of_ok hrun]
  rw [hstays.cursor] at hgoesOn
  exact ⟨hextends.trans hextends', hgoesOn⟩

/-- The reader rests before it goes on. -/
lemma rest (hn : Rests n) (hg : ∀ b, WalksAt P w step (g b)) :
    WalksAt P w step (n >>= g) := by
  refine restAt fun s hknown => ?_
  obtain ⟨b, t, hrun, hstays⟩ := hn s
  exact ⟨b, t, hrun, hstays, (hg b).weaken (hknown.trans hstays.grows)⟩

/-- Where nothing broke off, nothing was passed over. -/
lemma ok_of_recover {fallback b : α} (hn : WalksAt P known step n) (hP : P s.cursor)
    (hs : s.cursor.IsProper) (hknown : known.Grows s.env.classes)
    (hrun : Check.recover fallback n s = .ok b t) (hunbroken : t.log.IsUnbroken) :
    n s = .ok b t := by
  obtain ⟨-, hfault, -⟩ := hn s hP hs hknown
  obtain hbody | ⟨fault, t', hbody, -, rfl⟩ := exists_of_recover hrun
  · exact hbody
  · obtain ⟨hbreaks, -⟩ := hfault _ _ hbody
    exact absurd (Log.ofFault_mem_addFault _ hbreaks.severity_eq) (hunbroken _ hbreaks)

lemma recover {fallback : α} (hn : WalksAt P known step n) :
    WalksAt P known step (Check.recover fallback n) := by
  intro s hP hs hknown
  obtain ⟨hextends, -, hpath⟩ := hn s hP hs hknown
  refine ⟨?_, fun fault t hrun => absurd hrun recover_ne_fault, fun b t hrun hgoes =>
    hpath b t (hn.ok_of_recover hP hs hknown hrun (hgoes trivial)) hgoes⟩
  cases hbody : n s with
  | ok b t =>
      rw [hbody] at hextends
      rw [recover_of_ok hbody]
      exact hextends
  | error e t =>
      rw [hbody] at hextends
      cases e with
      | spent =>
          rw [recover_of_spent hbody]
          exact hextends
      | fault fault =>
          obtain ⟨honward, hproper⟩ := hextends.proper.resume s.cursor.index
          rw [recover_of_fault hbody]
          exact ⟨hproper, hextends.onward.trans honward,
            hextends.log.trans (Log.entries_prefix_add _ _), hextends.grows⟩

lemma within {enter : State → State} {leave : State → State → State}
    (henter : ∀ s, (enter s).cursor = s.cursor ∧ (enter s).log = s.log ∧ (enter s).env = s.env)
    (hleave : ∀ s t, (leave s t).cursor = t.cursor ∧ (leave s t).log = t.log ∧
      (leave s t).env = t.env) (hn : WalksAt P known step n) :
    WalksAt P known step (Check.within enter leave n) := by
  intro s hP hs hknown
  obtain ⟨hcursor, hlog, henv⟩ := henter s
  rw [← hcursor] at hP hs
  rw [← henv] at hknown
  obtain ⟨hextends, hfault, hpath⟩ := hn (enter s) hP hs hknown
  have hend : ∀ t, Extends (enter s) t → Extends s (leave s t) := by
    intro t ht
    obtain ⟨hcursor', hlog', henv'⟩ := hleave s t
    refine ⟨?_, ?_, ?_, ?_⟩
    · rw [hcursor']
      exact ht.proper
    · rw [hcursor', ← hcursor]
      exact ht.onward
    · rw [hlog', ← hlog]
      exact ht.log
    · rw [henv', ← henv]
      exact ht.grows
  rw [endState_within]
  refine ⟨hend _ hextends, fun fault t hrun => ?_, fun b t hrun hgoes => ?_⟩
  · obtain ⟨u, hbody, -⟩ := exists_of_within_error hrun
    exact ⟨(hfault _ _ hbody).1, absurd trivial⟩
  · obtain ⟨u, hbody, rfl⟩ := exists_of_within hrun
    rw [(hleave s u).2.1] at hgoes
    have hwalk := hpath b u hbody hgoes
    rwa [hcursor, ← (hleave s u).1] at hwalk

lemma inRoutine (routine : Routine) (hn : WalksAt P known step n) :
    WalksAt P known step (Check.inRoutine routine n) :=
  hn.within (fun _ => ⟨rfl, rfl, rfl⟩) fun _ _ => ⟨rfl, rfl, rfl⟩

lemma inClass (id : ClassId) (hn : WalksAt P known step n) :
    WalksAt P known step (Check.inClass id n) :=
  hn.within (fun _ => ⟨rfl, rfl, rfl⟩) fun _ _ => ⟨rfl, rfl, rfl⟩

lemma inLoop (hn : WalksAt P known step n) : WalksAt P known step (Check.inLoop n) :=
  hn.within (fun _ => ⟨rfl, rfl, rfl⟩) fun _ _ => ⟨rfl, rfl, rfl⟩

end WalksAt

namespace MirrorsAt

lemma mono (h : MirrorsAt P w step σ m n) (hstep : ∀ {c d}, step c d → step' c d) :
    MirrorsAt P w step' σ m n :=
  ⟨h.walks.mono hstep, h.echo⟩

lemma strengthen (h : MirrorsAt P w step σ m n) (hP : ∀ c, P' c → P c) :
    MirrorsAt P' w step σ m n :=
  ⟨h.walks.strengthen hP, fun s s' hs => h.echo s s' (hP _ hs)⟩

/-- What holds anywhere holds here. -/
lemma here (h : Mirrors w step σ m n) : MirrorsAt P w step σ m n :=
  h.strengthen fun _ _ => trivial

lemma pure {a b : α} (h : σ a = σ b) :
    MirrorsAt P w step σ (Pure.pure a : Check α) (Pure.pure b) := by
  refine ⟨.pure, fun s s' _ _ _ _ hcursor b' t' hrun _ => ?_⟩
  cases hrun
  exact ⟨a, s, rfl, h, hcursor, .refl _, .refl _⟩

lemma spent : MirrorsAt P w step σ (throw .spent : Check α) (throw .spent) :=
  ⟨.spent, fun _ _ _ _ _ _ _ _ _ hrun => nomatch hrun⟩

/-- A reader that gives no result is mirrored by any other. -/
lemma of_no_result (hn : WalksAt P w step n) (h : ∀ s b t, n s ≠ .ok b t) :
    MirrorsAt P w step σ m n :=
  ⟨hn, fun _ s' _ _ _ _ _ b t' hrun => absurd hrun (h s' b t')⟩

/-- What holds of the cursor after the first part is known to the second. -/
lemma bindAt {Q : α → Cursor → Prop} (hm : MirrorsAt P w step σ m n)
    (hpost : ∀ s b t, P s.cursor → s.cursor.IsProper → n s = .ok b t → Q b t.cursor)
    (hf : ∀ a b, σ a = σ b → MirrorsAt (Q b) w step τ (f a) (g b)) :
    MirrorsAt P w step τ (m >>= f) (n >>= g) := by
  refine ⟨hm.walks.bindAt hpost fun b => (hf b b rfl).walks, ?_⟩
  intro s s' hP hs' hknown hknown' hcursor b t' hrun hgoes
  obtain ⟨b₁, t₁', hfirst, hsecond⟩ := exists_of_bind hrun
  obtain ⟨hextends, -⟩ := hm.walks s' hP hs' hknown'
  rw [hfirst] at hextends
  have hknown₁ := hknown'.trans hextends.grows
  have hP₁ := hpost s' b₁ t₁' hP hs' hfirst
  obtain ⟨hextends', -⟩ := (hf b₁ b₁ rfl).walks t₁' hP₁ hextends.proper hknown₁
  rw [hsecond] at hextends'
  obtain ⟨a₁, t₁, hrun₁, hcontent, hechoes⟩ := hm.echo s s' hP hs' hknown hknown' hcursor b₁ t₁'
    hfirst (hgoes.of_isPrefix hextends'.log)
  obtain ⟨a, t, hrun₂, hcontent', hechoes'⟩ := (hf a₁ b₁ hcontent).echo t₁ t₁' hP₁
    hextends.proper (hknown.trans hechoes.grows) hknown₁ hechoes.cursor b t' hsecond hgoes
  exact ⟨a, t, (bind_of_ok hrun₁).trans hrun₂, hcontent', hechoes'.cursor,
    hechoes.grows.trans hechoes'.grows, hechoes.quiet.trans hechoes'.quiet⟩

lemma bind (hm : MirrorsAt P w step σ m n)
    (hf : ∀ a b, σ a = σ b → Mirrors w step τ (f a) (g b)) :
    MirrorsAt P w step τ (m >>= f) (n >>= g) :=
  hm.bindAt (Q := fun _ _ => True) (fun _ _ _ _ _ _ => trivial) hf

/-- Nothing of the first results matters. -/
lemma after (hm : MirrorsAt P w step (nothing : α → Unit) m n)
    (hf : ∀ a b, Mirrors w step τ (f a) (g b)) : MirrorsAt P w step τ (m >>= f) (n >>= g) :=
  hm.bind fun a b _ => hf a b

/-- The first results are the same. -/
lemma bind_eq (hm : MirrorsAt P w step id m n) (hf : ∀ a, Mirrors w step τ (f a) (g a)) :
    MirrorsAt P w step τ (m >>= f) (n >>= g) := by
  refine hm.bind fun a b hab => ?_
  obtain rfl : a = b := hab
  exact hf a

/-- The first reader rests before it goes on. -/
lemma rest_left {k : Check β} (hm : Rests m) (hf : ∀ a, MirrorsAt P w step τ (f a) k) :
    MirrorsAt P w step τ (m >>= f) k := by
  have hwalks : WalksAt P w step k := by
    intro s
    obtain ⟨a, -⟩ := hm s
    exact (hf a).walks s
  refine ⟨hwalks, fun s s' hP hs' hknown hknown' hcursor b t' hrun hgoes => ?_⟩
  obtain ⟨a, t, hrun₁, hstays⟩ := hm s
  obtain ⟨a', t', hrun₂, hcontent, hechoes⟩ := (hf a).echo t s' hP hs'
    (hknown.trans hstays.grows) hknown' (hstays.cursor.trans hcursor) b t' hrun hgoes
  exact ⟨a', t', (bind_of_ok hrun₁).trans hrun₂, hcontent, hechoes.cursor,
    hstays.grows.trans hechoes.grows, hstays.quiet.trans hechoes.quiet⟩

/-- The second reader rests before it goes on. -/
lemma rest_right {k : Check β} (hn : Rests n) (hg : ∀ b, MirrorsAt P w step τ k (g b)) :
    MirrorsAt P w step τ k (n >>= g) := by
  refine ⟨.rest hn fun b => (hg b).walks, ?_⟩
  intro s s' hP hs' hknown hknown' hcursor b t' hrun hgoes
  obtain ⟨b₁, t₁', hrun₁, hstays⟩ := hn s'
  rw [bind_of_ok hrun₁] at hrun
  rw [← hstays.cursor] at hP hcursor
  exact (hg b₁).echo s t₁' hP (hstays.extends hs').proper hknown
    (hknown'.trans hstays.grows) hcursor b t' hrun hgoes

/-- Both readers rest before they go on. -/
lemma rest (hm : Rests m) (hn : Rests n) (hf : ∀ a b, MirrorsAt P w step τ (f a) (g b)) :
    MirrorsAt P w step τ (m >>= f) (n >>= g) :=
  rest_left hm fun a => rest_right hn fun b => hf a b

lemma of_rests {Q : α → Prop} (hm : RestsWith Q m) (hn : RestsWith Q n)
    (h : ∀ a b, Q a → Q b → σ a = σ b) : MirrorsAt P w step σ m n := by
  refine ⟨.of_rests hn.rests, fun s s' _ _ _ _ hcursor b t' hrun _ => ?_⟩
  obtain ⟨a, t, hrun₁, ha, hstays⟩ := hm s
  obtain ⟨b', t'', hrun₂, hb, hstays'⟩ := hn s'
  cases hrun₂.symm.trans hrun
  refine ⟨a, t, hrun₁, h a b ha hb, ?_, hstays.grows, hstays.quiet⟩
  rw [hstays.cursor, hstays'.cursor, hcursor]

lemma resting (hm : Rests m) (hn : Rests n) :
    MirrorsAt P w step (nothing : α → Unit) m n := by
  have hwith : ∀ {k : Check α}, Rests k → RestsWith (fun _ => True) k := by
    intro k hk s
    obtain ⟨a, t, hrun, hstays⟩ := hk s
    exact ⟨a, t, hrun, trivial, hstays⟩
  exact of_rests (hwith hm) (hwith hn) fun _ _ _ _ => rfl

lemma recover {fallback : α} (hm : MirrorsAt P known step σ m n) :
    MirrorsAt P known step σ (Check.recover fallback m) (Check.recover fallback n) := by
  refine ⟨hm.walks.recover, ?_⟩
  intro s s' hP hs' hknown hknown' hcursor b t' hrun hgoes
  have hbody := hm.walks.ok_of_recover hP hs' hknown' hrun (hgoes trivial)
  obtain ⟨a, t, hrun', hcontent, hechoes⟩ :=
    hm.echo s s' hP hs' hknown hknown' hcursor b t' hbody hgoes
  exact ⟨a, t, recover_of_ok hrun', hcontent, hechoes⟩

lemma inClass (id : ClassId) (hm : MirrorsAt P known step σ m n) :
    MirrorsAt P known step σ (Check.inClass id m) (Check.inClass id n) := by
  refine ⟨hm.walks.inClass id, ?_⟩
  intro s s' hP hs' hknown hknown' hcursor b t' hrun hgoes
  obtain ⟨u', hbody, rfl⟩ := exists_of_within hrun
  obtain ⟨a, u, hbody', hcontent, hechoes⟩ := hm.echo { s with inClass := some id }
    { s' with inClass := some id } hP hs' hknown hknown' hcursor b u' hbody hgoes
  refine ⟨a, { u with inClass := s.inClass }, ?_, hcontent, hechoes.cursor, hechoes.grows,
    hechoes.quiet⟩
  rw [Check.inClass, Check.within, hbody']

end MirrorsAt

/-! ### Looking at the cursor -/

lemma mirrors_peek {F : Cursor → α} (h : ∀ s, m s = .ok (F s.cursor) s) :
    MirrorsAt P w step id m m := by
  have hpeeks : Peeks m := fun s => ⟨F s.cursor, h s⟩
  refine ⟨.of_rests hpeeks.rests, fun s s' _ _ _ _ hcursor b t' hrun _ => ?_⟩
  cases (h s').symm.trans hrun
  exact ⟨_, s, h s, congrArg F hcursor, hcursor, .refl _, .refl _⟩

lemma mirrors_kind : MirrorsAt P w step id kind kind :=
  mirrors_peek (F := Cursor.kind) fun _ => rfl

lemma mirrors_kindAhead (i : Nat) : MirrorsAt P w step id (kindAhead i) (kindAhead i) :=
  mirrors_peek (F := fun c => c.kindAhead i) fun _ => rfl

lemma mirrors_current : MirrorsAt P w step id current current :=
  mirrors_peek (F := Cursor.current) fun _ => rfl

lemma mirrors_position : MirrorsAt P w step id position position :=
  mirrors_peek (F := Cursor.position) fun _ => rfl

lemma mirrors_positionOf (token : Token) :
    MirrorsAt P w step id (positionOf token) (positionOf token) :=
  mirrors_peek (F := fun c => ⟨token.start, c.file⟩) fun _ => rfl

lemma mirrors_bound : MirrorsAt P w step id bound bound :=
  mirrors_peek (F := fun c => c.remaining + 1) fun _ => rfl

/-- What is done next depends on something that the cursor shows. -/
lemma WalksAt.onPeek {F : Cursor → α} (h : ∀ s, m s = .ok (F s.cursor) s)
    (hg : ∀ a, WalksAt (fun c => P c ∧ F c = a) w step (g a)) :
    WalksAt P w step (m >>= g) := by
  intro s hP hs hknown
  rw [bind_of_ok (h s)]
  exact hg (F s.cursor) s ⟨hP, rfl⟩ hs hknown

lemma MirrorsAt.onPeek {F : Cursor → α} (h : ∀ s, m s = .ok (F s.cursor) s)
    (hf : ∀ a, MirrorsAt (fun c => P c ∧ F c = a) w step τ (f a) (g a)) :
    MirrorsAt P w step τ (m >>= f) (m >>= g) := by
  refine ⟨.onPeek h fun a => (hf a).walks, fun s s' hP hs' hknown hknown' hcursor b t' hrun => ?_⟩
  rw [bind_of_ok (h s')] at hrun
  rw [bind_of_ok (h s), hcursor]
  exact (hf (F s'.cursor)).echo s s' ⟨hP, rfl⟩ hs' hknown hknown' hcursor b t' hrun

/-- What is done next depends on the kind of the token to be read. -/
lemma WalksAt.onKind {g : Kind → Check β}
    (h : ∀ k, WalksAt (fun c => P c ∧ c.kind = k) w step (g k)) :
    WalksAt P w step (kind >>= g) :=
  .onPeek (F := Cursor.kind) (fun _ => rfl) h

lemma MirrorsAt.onKind {f g : Kind → Check β}
    (h : ∀ k, MirrorsAt (fun c => P c ∧ c.kind = k) w step τ (f k) (g k)) :
    MirrorsAt P w step τ (kind >>= f) (kind >>= g) :=
  .onPeek (F := Cursor.kind) (fun _ => rfl) h

/-! ### Taking tokens -/

lemma mirrors_advance (h : ∀ c, P c → step c c.advance) :
    MirrorsAt P w step id advance advance := by
  refine ⟨fun s hP hs _ => ⟨?_, (fun _ _ h => nomatch h), fun b t hrun _ => ?_⟩, ?_⟩
  · exact ⟨hs.advance, Cursor.onward_advance _, List.prefix_refl _, .refl _⟩
  · cases hrun
    exact .single (h _ hP)
  · intro s s' _ _ _ _ hcursor b t' hrun _
    cases hrun
    exact ⟨s.cursor.current, _, rfl, congrArg Cursor.current hcursor, congrArg Cursor.advance hcursor,
      .refl _, .refl _⟩

lemma walks_require {kind : Kind} (h : ∀ c, P c → c.kind = kind → step c c.advance) :
    WalksAt P w step (require kind) := by
  have hat : ∀ c, P c ∧ c.kind = kind → step c c.advance := fun c hc => h c hc.1 hc.2
  intro s hP hs hknown
  by_cases hkind : s.cursor.kind = kind
  · rw [require_of_kind hkind]
    exact (mirrors_advance hat).walks s ⟨hP, hkind⟩ hs hknown
  · rw [require_of_ne hkind]
    refine ⟨.refl hs, fun fault t hrun => ?_, by rintro _ _ ⟨⟩⟩
    cases hrun
    exact ⟨.misplaced _ _, fun _ => .path .refl⟩

lemma mirrors_require {kind : Kind} (h : ∀ c, P c → c.kind = kind → step c c.advance) :
    MirrorsAt P w step id (require kind) (require kind) := by
  refine ⟨walks_require h, fun s s' _ _ _ _ hcursor b t' hrun _ => ?_⟩
  obtain ⟨hkind, rfl⟩ := require_ok hrun
  rw [require_of_kind hkind] at hrun
  cases hrun
  refine ⟨_, _, require_of_kind (hcursor ▸ hkind), ?_, ?_, .refl _, .refl _⟩
  · exact congrArg Cursor.current hcursor
  · exact congrArg Cursor.advance hcursor

lemma walks_takes {kind : Kind} (h : ∀ c, P c → c.kind = kind → step c c.advance) :
    WalksAt P w step (takes kind) := by
  have hat : ∀ c, P c ∧ c.kind = kind → step c c.advance := fun c hc => h c hc.1 hc.2
  intro s hP hs hknown
  by_cases hkind : s.cursor.kind = kind
  · rw [takes_of_kind hkind]
    exact ((mirrors_advance hat).walks.bind fun _ => .pure (a := true)) s ⟨hP, hkind⟩ hs hknown
  · rw [takes_of_ne hkind]
    refine ⟨.refl hs, (by rintro _ _ ⟨⟩), fun b t hrun _ => ?_⟩
    cases hrun
    exact .refl

lemma mirrors_takes {kind : Kind} (h : ∀ c, P c → c.kind = kind → step c c.advance) :
    MirrorsAt P w step id (takes kind) (takes kind) := by
  refine ⟨walks_takes h, fun s s' _ _ _ _ hcursor b t' hrun _ => ?_⟩
  by_cases hkind : s'.cursor.kind = kind
  · rw [takes_of_kind hkind] at hrun
    cases hrun
    exact ⟨_, _, takes_of_kind (hcursor ▸ hkind), rfl, congrArg Cursor.advance hcursor, .refl _,
      .refl _⟩
  · rw [takes_of_ne hkind] at hrun
    cases hrun
    exact ⟨_, _, takes_of_ne (hcursor ▸ hkind), rfl, hcursor, .refl _, .refl _⟩

/-! ### Braces -/

/-- A block with balanced tokens inside is a step. -/
def AdmitsBlocks (step : Cursor → Cursor → Prop) : Prop :=
  ∀ {c d : Cursor}, c.kind = .openCurly → Cursor.Balanced c.advance d → d.kind = .closeCurly →
    step c d.advance

lemma admitsBlocks_balanced : AdmitsBlocks Cursor.Balanced :=
  fun hopen hinside hclose => .block hopen hinside hclose (.refl _)

/-- Reads something in braces. -/
def inBraces (n : Check α) : Check α := do
  let _ ← require .openCurly
  let b ← n
  let _ ← require .closeCurly
  return b

lemma exists_of_inBraces (hn : Walks known Cursor.Balanced n) (hs : s.cursor.IsProper)
    (hknown : known.Grows s.env.classes) {a : α} (hrun : inBraces n s = .ok a t)
    (hunbroken : t.log.IsUnbroken) :
    ∃ d : Cursor, s.cursor.kind = .openCurly ∧ Cursor.Balanced s.cursor.advance d ∧
      d.kind = .closeCurly ∧ t.cursor = d.advance := by
  obtain ⟨opening, s₁, hopen, hrun⟩ := exists_of_bind hrun
  obtain ⟨hkind, rfl⟩ := require_ok hopen
  obtain ⟨content, s₂, hcontent, hrun⟩ := exists_of_bind hrun
  obtain ⟨closing, s₃, hclose, hrun⟩ := exists_of_bind hrun
  obtain ⟨hkind', rfl⟩ := require_ok hclose
  cases hrun
  obtain ⟨-, -, hpath⟩ := hn { s with cursor := s.cursor.advance } trivial hs.advance hknown
  exact ⟨s₂.cursor, hkind, .of_path id (hpath _ _ hcontent fun _ => hunbroken), hkind', rfl⟩

lemma walks_inBraces (hstep : AdmitsBlocks step) (hn : Walks known Cursor.Balanced n) :
    WalksAt P known step (inBraces n) := by
  have hany : Walks known (fun _ _ => True) (inBraces n) := by
    refine (walks_require fun _ _ _ => trivial).bind fun _ => ?_
    refine (hn.mono fun _ => trivial).bind fun b => ?_
    exact (walks_require fun _ _ _ => trivial).bind fun _ => .pure
  refine hany.along fun s b t _ hs hknown hrun hunbroken => ?_
  obtain ⟨d, hopen, hinside, hclose, hend⟩ := exists_of_inBraces hn hs hknown hrun hunbroken
  rw [hend]
  exact .single (hstep hopen hinside hclose)

lemma mirrors_inBraces (hstep : AdmitsBlocks step) (hm : Mirrors known Cursor.Balanced σ m n) :
    MirrorsAt P known step σ (inBraces m) (inBraces n) := by
  have hany : MirrorsAt P known (fun _ _ => True) σ (inBraces m) (inBraces n) := by
    refine (mirrors_require fun _ _ _ => trivial).bind_eq fun _ => ?_
    refine (hm.mono fun _ => trivial).bind fun a b hab => ?_
    exact (mirrors_require fun _ _ _ => trivial).bind_eq fun _ => .pure hab
  exact ⟨walks_inBraces hstep hm.walks, hany.echo⟩

/-! ### Breaking off -/

/-- The reader breaks off at once. -/
def Refuses (n : Check α) : Prop :=
  ∀ s, ∃ fault, n s = .error (.fault fault) s ∧ fault.cause.BreaksOff

lemma refuses_fail {cause : Cause} (h : cause.BreaksOff) (p : Position) :
    Refuses (fail cause p : Check α) :=
  fun _ => ⟨⟨cause, p⟩, rfl, h⟩

lemma refuses_reject : Refuses (reject : Check α) :=
  fun s => ⟨s.cursor.rejection, rfl, .unexpected _⟩

lemma refuses_rejectToken (token : Token) : Refuses (rejectToken token : Check α) :=
  fun s => ⟨⟨.unexpectedToken token.value, ⟨token.start, s.cursor.file⟩⟩, rfl, .unexpected _⟩

lemma Refuses.peek (hn : Peeks n) (hg : ∀ b, Refuses (g b)) : Refuses (n >>= g) := by
  intro s
  obtain ⟨b, hrun⟩ := hn s
  rw [bind_of_ok hrun]
  exact hg b s

lemma Refuses.bind (hn : Refuses n) : Refuses (n >>= g) := by
  intro s
  obtain ⟨fault, hrun, hbreaks⟩ := hn s
  exact ⟨fault, bind_of_error hrun, hbreaks⟩

/-- A reader fails at a place that it looks up. -/
lemma Refuses.failAt {cause : Cause} {place : Check Position} (h : cause.BreaksOff)
    (hplace : Peeks place) : Refuses (place >>= fun p => (fail cause p : Check α)) :=
  .peek hplace fun p => refuses_fail h p

lemma Refuses.failAt_bind {cause : Cause} {place : Check Position} (h : cause.BreaksOff)
    (hplace : Peeks place) : Refuses (place >>= fun p => fail cause p >>= g) :=
  .peek hplace fun p => (refuses_fail h p).bind

lemma Refuses.walks (h : Refuses n) : WalksAt P w step n := by
  intro s _ hs _
  obtain ⟨fault, hrun, hbreaks⟩ := h s
  rw [hrun]
  refine ⟨.refl hs, fun fault' t heq => ?_, fun _ _ heq => nomatch heq⟩
  cases heq
  exact ⟨hbreaks, fun _ => .path .refl⟩

lemma Refuses.mirrors (h : Refuses n) : MirrorsAt P w step σ m n := by
  refine .of_no_result h.walks fun s b t hrun => ?_
  obtain ⟨fault, hrun', -⟩ := h s
  cases hrun'.symm.trans hrun

/-- A token is taken that the reader may turn out to refuse. If it breaks off there, any token may be
taken, or this one is a step. -/
lemma MirrorsAt.onToken {f g : Token → Check β}
    (hP : ¬w.isStrict → ∀ c, P c → AfterWord c ∨ step c c.advance)
    (h : ∀ token, ((∀ c, P c → c.current = token → step c c.advance) ∧
      Mirrors w step τ (f token) (g token)) ∨ Refuses (g token)) :
    MirrorsAt P w step τ (advance >>= f) (advance >>= g) := by
  have hadvance : ∀ s : State, (advance >>= g) s =
      g s.cursor.current { s with cursor := s.cursor.advance } := fun _ => rfl
  have hadvance' : ∀ s : State, (advance >>= f) s =
      f s.cursor.current { s with cursor := s.cursor.advance } := fun _ => rfl
  constructor
  · intro s hPs hs hknown
    rw [hadvance]
    have hextends : Extends s { s with cursor := s.cursor.advance } :=
      ⟨hs.advance, Cursor.onward_advance _, List.prefix_refl _, .refl _⟩
    rcases h s.cursor.current with ⟨hstep, hmirrors⟩ | hrefuses
    · obtain ⟨hextends', hfault, hpath⟩ :=
        hmirrors.walks { s with cursor := s.cursor.advance } trivial hs.advance hknown
      have hfirst := ReflTransGen.single (hstep _ hPs rfl)
      exact ⟨hextends.trans hextends', fun fault t hrun => (hfault fault t hrun).imp_right
        fun hstrays hfree => .after hfirst (hstrays hfree),
        fun b t hrun hgoes => hfirst.trans (hpath b t hrun hgoes)⟩
    · obtain ⟨fault, hrun, hbreaks⟩ := hrefuses { s with cursor := s.cursor.advance }
      rw [hrun]
      refine ⟨hextends, fun fault' t heq => ?_, fun _ _ heq => nomatch heq⟩
      cases heq
      refine ⟨hbreaks, fun hfree => ?_⟩
      -- refused after the token was taken: it strays by one token, or the token is a step
      rcases hP hfree _ hPs with hafter | hstep
      · exact .token .refl hafter
      · exact .path (.single hstep)
  · intro s s' hP hs' hknown hknown' hcursor b t' hrun hgoes
    rw [hadvance] at hrun
    rw [hadvance', hcursor]
    rcases h s'.cursor.current with ⟨-, hmirrors⟩ | hrefuses
    · obtain ⟨a, t, hrun', hcontent, hechoes⟩ :=
        hmirrors.echo { s with cursor := s'.cursor.advance } { s' with cursor := s'.cursor.advance }
          trivial hs'.advance hknown hknown' rfl b t' hrun hgoes
      exact ⟨a, t, hrun', hcontent, hechoes.cursor, hechoes.grows, hechoes.quiet⟩
    · obtain ⟨fault, hrun', -⟩ := hrefuses { s' with cursor := s'.cursor.advance }
      cases hrun'.symm.trans hrun

end Check

end ScriptCheck
