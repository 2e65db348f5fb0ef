import ScriptCheck.Proofs.Analysis.Termination
import ScriptCheck.Proofs.Recovery.Braces
import ScriptCheck.Proofs.Syntax.Stmt

/-!
Slips, and readers that keep braces balanced.

Recovery counts braces from where a reader broke off, not from where the broken statement started.
So it matters what was read until then. There are four ways in which a brace comes to have no
partner (`Slips`): after `->`, `::`, `new` and the marks of a class a reader takes any token, also a
brace; the body of a conditional or loop may start with a closing brace, and a member with an
opening one, which recovery then passes over as the first token; and a label may be broken inside
the braces of a switch.

What is read from one state to another is balanced, or the file ends, or there is a slip on the way
(`Spans`). A reader balances if this holds however it ends (`Balances`). Readers that pass over
nothing do, as they can be followed up to where they break off (`WalksAt.balances`); the other rules
of this module say so of readers that are put together from others.
-/

namespace ScriptCheck

open Cursor

namespace Cursor

variable {c : Cursor}

/-- Nothing is read after the end. -/
lemma Onward.kind_eq_eof {d : Cursor} (h : c.Onward d) (hc : c.IsProper) (hd : d.IsProper)
    (heof : c.kind = .eof) : d.kind = .eof := by
  have hlast := hc.kind_eq_eof_iff.mp heof
  have hinside := hd.inside
  have hle := h.le
  have hsize : d.tokens.size = c.tokens.size := by rw [h.tokens]
  rw [hd.kind_eq_eof_iff]
  omega

end Cursor

namespace Check

variable {α β : Type} {P P' : State → Prop} {I : Cursor → Prop} {m : Check α} {f : α → Check β}
  {s s' t t' u : State}

/-! ### Slips -/

/-- Reads a word and the condition after it. -/
def guardedBy (word : Kind) : Check Facts := do
  let _ ← require word
  condition

/-- Reads the head of a counting loop. -/
def countedHead : Check (List Facts × List Facts × List Facts) := do
  let _ ← require .kwFor
  let _ ← require .openParen
  let first ← exprs .semicolon
  let conditions ← exprs .semicolon
  let steps ← exprs .closeParen
  return (first, conditions, steps)

/-- Reads the head of a loop over the elements of a value. -/
def iteratedHead : Check Facts := do
  let _ ← require .kwForeach
  let _ ← require .openParen
  let subject ← expr .lowest
  let _ ← require .kwAs
  let (keyType, elementType) ← iterationTypes subject.type
  loopVariables keyType elementType
  let _ ← require .closeParen
  return subject

/-- The body of a conditional or a loop is due. -/
inductive BodyDue : State → Prop
  | guarded {word : Kind} {facts : Facts} {s t : State}
      (hword : word ∈ [.kwIf, .kwElseIf, .kwWhile]) (h : guardedBy word s = .ok facts t) : BodyDue t
  | plain {word : Kind} {token : Token} {s t : State} (hword : word ∈ [.kwElse, .kwDo])
      (h : require word s = .ok token t) : BodyDue t
  | counted {heads : List Facts × List Facts × List Facts} {s t : State}
      (h : countedHead s = .ok heads t) : BodyDue t
  | iterated {subject : Facts} {s t : State} (h : iteratedHead s = .ok subject t) : BodyDue t

/-- A member of the class, or its closing brace, is due. -/
inductive MemberDue (depth : Nat) (h : OpenClass) : State → Prop
  | first {s t : State} (hheader : (note? >>= classHeader) s = .ok h t)
      (hopen : t.cursor.kind = .openCurly) :
      MemberDue depth h { t with cursor := t.cursor.advance, inClass := some h.id }
  | next {s t : State} (hdue : MemberDue depth h s) (hkind : s.cursor.kind ≠ .closeCurly)
      (hmember : recover () (classMember (some (stmtWithin depth)) h) s = .ok () t) :
      MemberDue depth h t

/-- Reads the groups of a switch. -/
def groups (stmt : StmtReader) : Check Groups :=
  inLoop do groupsFrom stmt (← bound) {}

/-- At the cursor there is a brace that is taken without its partner. -/
inductive Slips : State → Prop
  | word {s : State} (hafter : AfterWord s.cursor)
      (hbrace : s.cursor.kind = .openCurly ∨ s.cursor.kind = .closeCurly) : Slips s
  | body {s : State} (hdue : BodyDue s) (hclose : s.cursor.kind = .closeCurly) : Slips s
  | member {depth : Nat} {h : OpenClass} {s : State} (hdue : MemberDue depth h s)
      (hopen : s.cursor.kind = .openCurly) : Slips s
  | label {depth : Nat} {subject : Facts} {fault : Fault} {s t u : State}
      (hhead : guardedBy .kwSwitch s = .ok subject t) (hopen : t.cursor.kind = .openCurly)
      (hgroups : groups (stmtWithin depth) { t with cursor := t.cursor.advance } =
        .error (.fault fault) u) : Slips t

lemma brace_of_isBrace {kind : Kind} (h : ¬kind.isBrace = false) (hne : kind ≠ .eof) :
    kind = .openCurly ∨ kind = .closeCurly := by
  cases kind <;> first | exact .inl rfl | exact .inr rfl | exact absurd rfl h | exact absurd rfl hne

/-! ### What is read from one state to another -/

/-- The states only differ in what reading does not change. -/
structure Alike (s s' : State) : Prop where
  cursor : s'.cursor = s.cursor
  log : s'.log = s.log
  env : s'.env = s.env

lemma Alike.refl (s : State) : Alike s s := ⟨rfl, rfl, rfl⟩

lemma Alike.symm (h : Alike s s') : Alike s' s := ⟨h.cursor.symm, h.log.symm, h.env.symm⟩

lemma Extends.congr (hs : Alike s s') (ht : Alike t t') (h : Extends s t) : Extends s' t' := by
  refine ⟨?_, ?_, ?_, ?_⟩
  · rw [ht.cursor]
    exact h.proper
  · rw [hs.cursor, ht.cursor]
    exact h.onward
  · rw [hs.log, ht.log]
    exact h.log
  · rw [hs.env, ht.env]
    exact h.grows

/-- It is balanced, or the file ends, or there is a slip on the way. -/
structure Spans (s t : State) : Prop where
  reach : Extends s t
  braces : t.cursor.kind = .eof ∨ Balanced s.cursor t.cursor ∨
    ∃ u, Extends s u ∧ Extends u t ∧ Slips u

namespace Spans

lemma of_balanced (hreach : Extends s t) (h : Balanced s.cursor t.cursor) : Spans s t :=
  ⟨hreach, .inr (.inl h)⟩

lemma of_slip (hs : s.cursor.IsProper) (hreach : Extends s t) (h : Slips s) : Spans s t :=
  ⟨hreach, .inr (.inr ⟨s, .refl hs, hreach, h⟩)⟩

lemma refl (hs : s.cursor.IsProper) : Spans s s :=
  .of_balanced (.refl hs) (.refl _)

lemma of_stays (h : Stays s t) (hs : s.cursor.IsProper) : Spans s t := by
  refine .of_balanced (h.extends hs) ?_
  rw [h.cursor]
  exact .refl _

lemma trans (h : Spans s t) (h' : Spans t u) : Spans s u := by
  refine ⟨h.reach.trans h'.reach, ?_⟩
  rcases h.braces with heof | hbalanced | ⟨v, hv, hvt, hslips⟩
  · exact .inl (h'.reach.onward.kind_eq_eof h.reach.proper h'.reach.proper heof)
  · rcases h'.braces with heof | hbalanced' | ⟨v, htv, hv, hslips⟩
    · exact .inl heof
    · exact .inr (.inl (hbalanced.trans hbalanced'))
    · exact .inr (.inr ⟨v, h.reach.trans htv, hv, hslips⟩)
  · exact .inr (.inr ⟨v, hv, hvt.trans h'.reach, hslips⟩)

lemma congr (hs : Alike s s') (ht : Alike t t') (h : Spans s t) : Spans s' t' := by
  refine ⟨h.reach.congr hs ht, ?_⟩
  rw [hs.cursor, ht.cursor]
  refine h.braces.imp_right (.imp_right ?_)
  rintro ⟨u, hsu, hut, hslips⟩
  exact ⟨u, hsu.congr hs (.refl u), hut.congr (.refl u) ht, hslips⟩

end Spans

/-- One token is taken. -/
lemma extends_advance (hs : s.cursor.IsProper) : Extends s { s with cursor := s.cursor.advance } :=
  ⟨hs.advance, onward_advance _, List.prefix_refl _, .refl _⟩

lemma spans_advance (hs : s.cursor.IsProper) (h : s.cursor.kind.isBrace = false) :
    Spans s { s with cursor := s.cursor.advance } :=
  .of_balanced (extends_advance hs) (.single h)

/-! ### Readers that keep braces balanced -/

/-- The computation ends in the state, with a result or a fault. -/
inductive Arrives (m : Check α) (s : State) : State → Prop
  | ok {a : α} {t : State} (h : m s = .ok a t) : Arrives m s t
  | fault {fault : Fault} {t : State} (h : m s = .error (.fault fault) t) : Arrives m s t

/-- What is read is in the relation, if each part of it is. -/
class IsReading (R : State → State → Prop) : Prop where
  reach : ∀ {s t : State}, R s t → Extends s t
  of_stays : ∀ {s t : State}, Stays s t → s.cursor.IsProper → R s t
  trans : ∀ {s t u : State}, R s t → R t u → R s u

instance : IsReading Spans where
  reach := Spans.reach
  of_stays := Spans.of_stays
  trans := Spans.trans

/-- From the states with the property, the reader ends in states that are in the relation to them.
-/
def TracesOn (R : State → State → Prop) (P : State → Prop) (m : Check α) : Prop :=
  ∀ s t, P s → s.cursor.IsProper → Arrives m s t → R s t

/-- From the states whose cursor has the property, it does. -/
def TracesAt (R : State → State → Prop) (I : Cursor → Prop) (m : Check α) : Prop :=
  TracesOn R (fun s => I s.cursor) m

/-- From the states with the property, the reader keeps braces balanced. -/
abbrev BalancesOn (P : State → Prop) (m : Check α) : Prop := TracesOn Spans P m

/-- From the states whose cursor has the property, it does. -/
abbrev BalancesAt (I : Cursor → Prop) (m : Check α) : Prop := TracesAt Spans I m

/-- It does from all states. -/
abbrev Balances (m : Check α) : Prop := BalancesAt (fun _ => True) m

lemma Arrives.of_run {a : α} (hrun : m s = .ok a u) (h : Arrives m s t) : t = u := by
  cases h with
  | ok h =>
      cases hrun.symm.trans h
      rfl
  | fault h => cases hrun.symm.trans h

lemma Arrives.endState_eq (h : Arrives m s t) : endState (m s) = t := by
  cases h with
  | ok h => rw [h]; rfl
  | fault h => rw [h]; rfl

/-- A sequence ends where its first part breaks off, or where the second ends. -/
lemma Arrives.of_bind (h : Arrives (m >>= f) s t) :
    (∃ fault, m s = .error (.fault fault) t) ∨ ∃ a u, m s = .ok a u ∧ Arrives (f a) u t := by
  cases hrun : m s with
  | ok a u =>
      refine .inr ⟨a, u, rfl, ?_⟩
      cases h with
      | ok h =>
          rw [bind_of_ok hrun] at h
          exact .ok h
      | fault h =>
          rw [bind_of_ok hrun] at h
          exact .fault h
  | error e u =>
      cases h with
      | ok h =>
          rw [bind_of_error hrun] at h
          cases h
      | fault h =>
          rw [bind_of_error hrun] at h
          cases h
          exact .inl ⟨_, rfl⟩

/-- If the token is missing, nothing is taken. -/
lemma state_of_require_fault {kind : Kind} {fault : Fault}
    (h : require kind s = .error (.fault fault) t) : t = s := by
  by_cases hkind : s.cursor.kind = kind
  · rw [require_of_kind hkind] at h
    cases h
  · rw [require_of_ne hkind] at h
    cases h
    rfl

/-! ### Sequences -/

section

variable {R : State → State → Prop} [IsReading R]

namespace TracesOn

omit [IsReading R] in
lemma strengthen (h : TracesOn R P m) (hP : ∀ s, P' s → P s) : TracesOn R P' m :=
  fun s t hs => h s t (hP s hs)

/-- What holds after the first part is known to the second. -/
lemma bindOn {Q : α → State → Prop} (hm : TracesOn R P m)
    (hpost : ∀ s a t, P s → s.cursor.IsProper → m s = .ok a t → Q a t)
    (hf : ∀ a, TracesOn R (Q a) (f a)) : TracesOn R P (m >>= f) := by
  intro s t hP hs harrives
  rcases harrives.of_bind with ⟨fault, hrun⟩ | ⟨a, u, hrun, hrest⟩
  · exact hm s t hP hs (.fault hrun)
  · have hfirst := hm s u hP hs (.ok hrun)
    have hu := (IsReading.reach hfirst).proper
    exact IsReading.trans hfirst (hf a u t (hpost s a u hP hs hrun) hu hrest)

lemma bind (hm : TracesOn R P m) (hf : ∀ a, TracesAt R (fun _ => True) (f a)) :
    TracesOn R P (m >>= f) :=
  hm.bindOn (Q := fun _ _ => True) (fun _ _ _ _ _ _ => trivial) hf

omit [IsReading R] in
lemma peek (hm : Peeks m) (hf : ∀ a, TracesOn R P (f a)) : TracesOn R P (m >>= f) := by
  intro s t hP hs harrives
  obtain ⟨a, hrun⟩ := hm s
  rcases harrives.of_bind with ⟨fault, hfault⟩ | ⟨a', u, hrun', hrest⟩
  · cases hrun.symm.trans hfault
  · cases hrun.symm.trans hrun'
    exact hf a s t hP hs hrest

omit [IsReading R] in
/-- What is done next depends on the kind of the token to be read. -/
lemma onKind {f : Kind → Check β}
    (hf : ∀ k, TracesOn R (fun s => P s ∧ s.cursor.kind = k) (f k)) :
    TracesOn R P (kind >>= f) := by
  intro s t hP hs harrives
  rcases harrives.of_bind with ⟨fault, hfault⟩ | ⟨k, u, hrun, hrest⟩
  · cases hfault
  · cases hrun
    exact hf _ s t ⟨hP, rfl⟩ hs hrest

end TracesOn

namespace TracesAt

variable {I' : Cursor → Prop}

omit [IsReading R] in
lemma strengthen (h : TracesAt R I m) (hI : ∀ c, I' c → I c) : TracesAt R I' m :=
  TracesOn.strengthen h fun s => hI s.cursor

omit [IsReading R] in
/-- What holds anywhere holds here. -/
lemma here (h : TracesAt R (fun _ => True) m) : TracesAt R I m :=
  h.strengthen fun _ _ => trivial

omit [IsReading R] in
lemma on (h : TracesAt R (fun _ => True) m) : TracesOn R P m :=
  TracesOn.strengthen h fun _ _ => trivial

lemma of_rests (h : Rests m) : TracesAt R I m := by
  intro s t _ hs harrives
  obtain ⟨a, u, hrun, hstays⟩ := h s
  obtain rfl := harrives.of_run hrun
  exact IsReading.of_stays hstays hs

lemma pure {a : α} : TracesAt R I (Pure.pure a : Check α) :=
  .of_rests .pure

omit [IsReading R] in
lemma spent : TracesAt R I (throw .spent : Check α) := by
  intro s t _ _ harrives
  cases harrives with
  | ok h => cases h
  | fault h => cases h

lemma of_refuses (h : Refuses m) : TracesAt R I m := by
  intro s t _ hs harrives
  obtain ⟨fault, hrun, -⟩ := h s
  cases harrives with
  | ok h => cases hrun.symm.trans h
  | fault h =>
      cases hrun.symm.trans h
      exact IsReading.of_stays (.refl s) hs

/-- What holds of the state after the first part is known to the second. -/
lemma bindOn {Q : α → State → Prop} (hm : TracesAt R I m)
    (hpost : ∀ s a t, I s.cursor → s.cursor.IsProper → m s = .ok a t → Q a t)
    (hf : ∀ a, TracesOn R (Q a) (f a)) : TracesAt R I (m >>= f) :=
  TracesOn.bindOn hm hpost hf

lemma bindAt {J : α → Cursor → Prop} (hm : TracesAt R I m)
    (hpost : ∀ s a t, I s.cursor → s.cursor.IsProper → m s = .ok a t → J a t.cursor)
    (hf : ∀ a, TracesAt R (J a) (f a)) : TracesAt R I (m >>= f) :=
  hm.bindOn hpost hf

lemma bind (hm : TracesAt R I m) (hf : ∀ a, TracesAt R (fun _ => True) (f a)) :
    TracesAt R I (m >>= f) :=
  TracesOn.bind hm hf

/-- The reader rests before it goes on. -/
lemma rest (hm : Rests m) (hf : ∀ a, TracesAt R I (f a)) : TracesAt R I (m >>= f) := by
  refine bindAt (J := fun _ => I) (.of_rests hm) (fun s a t hI _ hrun => ?_) hf
  obtain ⟨a', t', hrun', hstays⟩ := hm s
  cases hrun'.symm.trans hrun
  rwa [hstays.cursor]

/-- What is done next depends on something that the cursor shows. -/
lemma onPeek {F : Cursor → α} (h : ∀ s, m s = .ok (F s.cursor) s)
    (hf : ∀ a, TracesAt R (fun c => I c ∧ F c = a) (f a)) : TracesAt R I (m >>= f) := by
  have hpeeks : Peeks m := fun s => ⟨F s.cursor, h s⟩
  refine bindAt (.of_rests hpeeks.rests) (fun s a t hI _ hrun => ?_) hf
  cases (h s).symm.trans hrun
  exact ⟨hI, rfl⟩

lemma onKind {f : Kind → Check β} (h : ∀ k, TracesAt R (fun c => I c ∧ c.kind = k) (f k)) :
    TracesAt R I (kind >>= f) :=
  .onPeek (F := Cursor.kind) (fun _ => rfl) h

/-! ### Single tokens -/

lemma require {kind : Kind} (h : ∀ s : State, s.cursor.kind = kind → s.cursor.IsProper →
    R s { s with cursor := s.cursor.advance }) : TracesAt R I (Check.require kind) := by
  intro s t _ hs harrives
  cases harrives with
  | ok hrun =>
      obtain ⟨hkind, rfl⟩ := require_ok hrun
      exact h s hkind hs
  | fault hrun =>
      rw [state_of_require_fault hrun]
      exact IsReading.of_stays (.refl s) hs

lemma takes {kind : Kind} (h : ∀ s : State, s.cursor.kind = kind → s.cursor.IsProper →
    R s { s with cursor := s.cursor.advance }) : TracesAt R I (Check.takes kind) := by
  intro s t _ hs harrives
  by_cases hkind : s.cursor.kind = kind
  · obtain rfl := harrives.of_run (takes_of_kind hkind)
    exact h s hkind hs
  · obtain rfl := harrives.of_run (takes_of_ne hkind)
    exact IsReading.of_stays (.refl t) hs

end TracesAt

end

/-! ### Tokens and braces -/

lemma balances_require {kind : Kind} (h : kind.isBrace = false) : BalancesAt I (require kind) :=
  .require fun _ hkind hs => spans_advance hs (hkind ▸ h)

lemma balances_takes {kind : Kind} (h : kind.isBrace = false) : BalancesAt I (takes kind) :=
  .takes fun _ hkind hs => spans_advance hs (hkind ▸ h)

/-- A reader that goes by balanced tokens up to where it ends keeps braces balanced. If it broke off at
a token after a word after which any token is taken, that may be a slip. -/
lemma WalksAt.balances (h : WalksAt I .free Balanced m) : BalancesAt I m := by
  intro s t hI hs harrives
  obtain ⟨hreach, hfault, hpath⟩ := h s hI hs (.empty _)
  rw [harrives.endState_eq] at hreach
  cases harrives with
  | ok hrun => exact .of_balanced hreach (.of_path id (hpath _ t hrun (Tracking.goes_free _)))
  | fault hrun =>
      have hstrays := (hfault _ t hrun).2 not_false
      generalize hend : t.cursor = d at hstrays
      cases hstrays with
      | path hpath => exact .of_balanced hreach (hend ▸ .of_path id hpath)
      | @token d hpath hafter =>
          have hbalanced : Balanced s.cursor d := .of_path id hpath
          obtain ⟨hproper, honward, -⟩ := hbalanced.closeAt_eq hs 1 le_rfl
          by_cases htoken : d.kind.isBrace = false
          · exact .of_balanced hreach (hend ▸ hbalanced.trans (.single htoken))
          refine ⟨hreach, ?_⟩
          rw [hend]
          by_cases heof : d.kind = .eof
          · exact .inl ((onward_advance d).kind_eq_eof hproper hproper.advance heof)
          · refine .inr (.inr ⟨{ t with cursor := d }, ⟨hproper, honward, hreach.log, hreach.grows⟩,
              ⟨hreach.proper, ?_, List.prefix_refl _, .refl _⟩,
              .word hafter (brace_of_isBrace htoken heof)⟩)
            rw [hend]
            exact onward_advance d

namespace TracesOn

/-- At a slip nothing has to be shown of the reader, other than that it reads on. -/
lemma of_slips {step : Cursor → Cursor → Prop} {S : State → Prop} (hS : ∀ s, P s → S s → Slips s)
    (hwalks : Walks (⟨[]⟩ : ClassTable) step m) (hm : BalancesOn (fun s => ¬S s) m) : BalancesOn P m := by
  intro s t hP hs harrives
  by_cases h : S s
  · obtain ⟨hreach, -⟩ := hwalks s trivial hs (.empty _)
    rw [harrives.endState_eq] at hreach
    exact .of_slip hs hreach (hS s hP h)
  · exact hm s t h hs harrives

/-- A broken part is passed over. If it broke off at its first token, that is no brace, or the brace
is a slip. -/
lemma recover {fallback : α} (hm : BalancesOn P m)
    (hfirst : ∀ s fault t, P s → s.cursor.IsProper → m s = .error (.fault fault) t →
      t.cursor.index = s.cursor.index →
      s.cursor.kind = .eof ∨ s.cursor.kind.isBrace = false ∨ Slips s) :
    BalancesOn P (Check.recover fallback m) := by
  intro s t hP hs harrives
  cases harrives with
  | fault hrecover => exact absurd hrecover recover_ne_fault
  | ok hrecover =>
      obtain hrun | ⟨fault, u, hrun, -, rfl⟩ := exists_of_recover hrecover
      · exact hm s t hP hs (.ok hrun)
      · have hbroken := hm s u hP hs (.fault hrun)
        obtain ⟨honward, hproper⟩ := hbroken.reach.proper.resume s.cursor.index
        have hreach : Extends u { u with
            log := u.log.addFault fault
            cursor := u.cursor.resume s.cursor.index } :=
          ⟨hproper, honward, Log.entries_prefix_add _ _, .refl _⟩
        by_cases hslips : Slips s
        · exact .of_slip hs (hbroken.reach.trans hreach) hslips
        · have hpassed : (u.cursor.resume s.cursor.index).kind = .eof ∨
              Balanced u.cursor (u.cursor.resume s.cursor.index) := by
            refine balanced_resume hbroken.reach.proper fun hindex => ?_
            rw [hbroken.reach.onward.eq_of_index hindex]
            exact (hfirst s fault u hP hs hrun hindex).imp_right (·.resolve_right hslips)
          exact hbroken.trans ⟨hreach, hpassed.imp_right .inl⟩

/-- What is in braces is read up to the closing brace or the end, and breaks off only in a slip. -/
lemma inBraces {Q : State → Prop}
    (hopen : ∀ s, P s → s.cursor.kind = .openCurly → Q { s with cursor := s.cursor.advance })
    (hm : BalancesOn Q m)
    (hfault : ∀ s fault t, P s → s.cursor.kind = .openCurly →
      m { s with cursor := s.cursor.advance } = .error (.fault fault) t → Slips s)
    (hend : ∀ s a t, Q s → s.cursor.IsProper → m s = .ok a t →
      t.cursor.kind = .closeCurly ∨ t.cursor.kind = .eof) :
    BalancesOn P (Check.inBraces m) := by
  intro s t hP hs harrives
  rcases harrives.of_bind with ⟨fault, hrun⟩ | ⟨token, s₁, hrun, hrest⟩
  · rw [state_of_require_fault hrun]
    exact .refl hs
  obtain ⟨hkind, rfl⟩ := require_ok hrun
  have hQ := hopen s hP hkind
  rcases hrest.of_bind with ⟨fault, hrun⟩ | ⟨a, u, hrun, hrest⟩
  · have hinside := hm _ t hQ hs.advance (.fault hrun)
    exact .of_slip hs ((extends_advance hs).trans hinside.reach) (hfault s fault t hP hkind hrun)
  have hinside := hm _ u hQ hs.advance (.ok hrun)
  have hreach := (extends_advance hs).trans hinside.reach
  rcases hrest.of_bind with ⟨fault, hclose⟩ | ⟨token, v, hclose, hrest⟩
  · -- the closing brace is only missing at the end
    obtain rfl := state_of_require_fault hclose
    rcases hend _ a t hQ hs.advance hrun with hkind' | heof
    · rw [require_of_kind hkind'] at hclose
      cases hclose
    · exact ⟨hreach, .inl heof⟩
  · obtain ⟨hkind', rfl⟩ := require_ok hclose
    obtain rfl := hrest.of_run (show (pure a : Check α) _ = .ok a _ from rfl)
    have hlast := extends_advance hinside.reach.proper
    refine ⟨hreach.trans hlast, ?_⟩
    rcases hinside.braces with heof | hbalanced | ⟨v, hv, hvu, hslips⟩
    · rw [heof] at hkind'
      cases hkind'
    · exact .inr (.inl (.block hkind hbalanced hkind' (.refl _)))
    · exact .inr (.inr ⟨v, (extends_advance hs).trans hv, hvu.trans hlast, hslips⟩)

end TracesOn

/-! ### Contexts -/

/-- What is read in another context is read in that around it. -/
lemma TracesOn.within {Q : State → Prop} {enter : State → State} {leave : State → State → State}
    (henter : ∀ s, Alike s (enter s)) (hleave : ∀ s t, Alike t (leave s t))
    (hQ : ∀ s, P s → Q (enter s)) (hm : BalancesOn Q m) :
    BalancesOn P (Check.within enter leave m) := by
  intro s t hP hs harrives
  have hs' : (enter s).cursor.IsProper := by rwa [(henter s).cursor]
  have hback : ∀ u, Arrives m (enter s) u → Spans s (leave s u) := fun u hu =>
    (hm (enter s) u (hQ s hP) hs' hu).congr (henter s).symm (hleave s u)
  cases harrives with
  | ok hwithin =>
      obtain ⟨u, hrun, rfl⟩ := exists_of_within hwithin
      exact hback u (.ok hrun)
  | fault hwithin =>
      obtain ⟨u, hrun, rfl⟩ := exists_of_within_error hwithin
      exact hback u (.fault hrun)

lemma TracesAt.within {enter : State → State} {leave : State → State → State}
    (henter : ∀ s, Alike s (enter s)) (hleave : ∀ s t, Alike t (leave s t)) (hm : BalancesAt I m) :
    BalancesAt I (Check.within enter leave m) := by
  refine TracesOn.within henter hleave (fun s hI => ?_) hm
  rwa [(henter s).cursor]

lemma TracesAt.inRoutine (routine : Routine) (hm : BalancesAt I m) :
    BalancesAt I (Check.inRoutine routine m) :=
  hm.within (fun _ => ⟨rfl, rfl, rfl⟩) fun _ _ => ⟨rfl, rfl, rfl⟩

lemma TracesAt.inLoop (hm : BalancesAt I m) : BalancesAt I (Check.inLoop m) :=
  hm.within (fun _ => ⟨rfl, rfl, rfl⟩) fun _ _ => ⟨rfl, rfl, rfl⟩

end Check

end ScriptCheck
