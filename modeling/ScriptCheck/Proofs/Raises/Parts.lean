import ScriptCheck.Analysis.Expr.Reader
import ScriptCheck.Proofs.Analysis.Reads

/-!
The parts that a reader reads.

The readers of operands and operators take the reader of expressions for what stands inside them.
What they read with it is found by taking it away: `refusing part` is a reader of expressions that
breaks off at an expression with the facts of `part`, and a run that gave a result has read such an
expression if it breaks off with that reader in place (`ReadsPart`).

`Gathers` compares the two runs step by step. It lists the parts in the order in which they are
read, and says that the run goes on as before as long as the part that is refused is not among them.
Its rules follow the readers: a step that reads no expression, an expression, and one after the
other.
-/

namespace ScriptCheck

/-! ### Sets of exceptions -/

namespace NatSet

/-- All members of the first set are in the second. -/
instance : HasSubset NatSet := ⟨fun s t => ∀ n ∈ s, n ∈ t⟩

variable {s t u : NatSet}

lemma subset_iff : s ⊆ t ↔ ∀ n ∈ s, n ∈ t := Iff.rfl

instance : Decidable (s ⊆ t) :=
  decidable_of_iff (∀ n ∈ s.elems, n ∈ t) Iff.rfl

lemma subset_rfl : s ⊆ s := fun _ h => h

lemma subset_union_left : s ⊆ s ∪ t := fun _ h => mem_union.mpr (.inl h)

lemma subset_union_right : t ⊆ s ∪ t := fun _ h => mem_union.mpr (.inr h)

lemma union_subset_iff : s ∪ t ⊆ u ↔ s ⊆ u ∧ t ⊆ u := by
  simp only [subset_iff, mem_union, or_imp, forall_and]

end NatSet

lemma mem_allRaises {exprs : List Facts} {c : ClassId} :
    c ∈ allRaises exprs ↔ ∃ e ∈ exprs, c ∈ e.raises := by
  induction exprs with
  | nil => simp [allRaises]
  | cons e exprs ih => simpa [allRaises] using or_congr_right ih

lemma allRaises_subset_iff {exprs : List Facts} {u : NatSet} :
    allRaises exprs ⊆ u ↔ ∀ e ∈ exprs, e.raises ⊆ u := by
  simp only [NatSet.subset_iff, mem_allRaises]
  exact ⟨fun h e he c hc => h c ⟨e, he, hc⟩, fun h c ⟨e, he, hc⟩ => h e he c hc⟩

namespace Check

/-! ### Refusing a part -/

/-- Reads an expression, but breaks off if it has the facts of the part. -/
def refusing (part : Facts) (expr : ExprReader) : ExprReader := fun power => do
  let facts ← expr power
  if facts = part then throw .spent else return facts

/-- From the state, the reader reads an expression with the facts of the part: it does not get by
without one. -/
def ReadsPart (reader : ExprReader → Check Facts) (expr : ExprReader) (s : State)
    (part : Facts) : Prop :=
  ∃ e s', reader (refusing part expr) s = .error e s'

/-! ### The parts of a run -/

variable {α β : Type} {part : Facts} {expr : ExprReader} {s : State} {m n : Check α}
  {f g : α → Check β}

/-- If the first computation gives a result, it does so from a list of parts, and the second, in
which the part is refused, gives the same result unless the part is in the list. -/
def Gathers (part : Facts) (s : State) (m n : Check α)
    (Q : List Facts → α → State → Prop) : Prop :=
  ∀ a s', m s = .ok a s' → ∃ parts, Q parts a s' ∧ (part ∉ parts → n s = .ok a s')

namespace Gathers

variable {P Q : List Facts → α → State → Prop} {R : List Facts → β → State → Prop}

lemma mono (h : Gathers part s m n P) (hPQ : ∀ parts a s', P parts a s' → Q parts a s') :
    Gathers part s m n Q := by
  intro a s' hrun
  obtain ⟨parts, hparts, hsame⟩ := h a s' hrun
  exact ⟨parts, hPQ parts a s' hparts, hsame⟩

/-- A computation that reads no expressions has no parts. -/
lemma rest (h : ∀ a s', m s = .ok a s' → Q [] a s') : Gathers part s m m Q :=
  fun a s' hrun => ⟨[], h a s' hrun, fun _ => hrun⟩

lemma pure {a : α} (h : Q [] a s) : Gathers part s (Pure.pure a) (Pure.pure a) Q := by
  refine rest fun b s' hrun => ?_
  cases hrun
  exact h

/-- A computation that gives no result has nothing to show. -/
lemma fails {e : Halt} {t : State} (h : m s = .error e t) : Gathers part s m n Q := by
  intro a s' hrun
  cases h.symm.trans hrun

/-- The reader of expressions reads the one part that it gives. -/
lemma single (power : Power) :
    Gathers part s (expr power) (refusing part expr power) fun parts a _ => parts = [a] := by
  intro a s' hrun
  refine ⟨[a], rfl, fun hpart => ?_⟩
  rw [refusing, bind_of_ok hrun, if_neg fun h => hpart (by simp [h])]
  rfl

/-- The parts of a sequence are those of the first and then those of the second. -/
lemma bind (hm : Gathers part s m n P)
    (hf : ∀ ps a s', m s = .ok a s' → P ps a s' →
      Gathers part s' (f a) (g a) fun qs => R (ps ++ qs)) :
    Gathers part s (m >>= f) (n >>= g) R := by
  intro b s'' hrun
  obtain ⟨a, s', ha, hb⟩ := exists_of_bind hrun
  obtain ⟨ps, hps, hsame⟩ := hm a s' ha
  obtain ⟨qs, hqs, hsame'⟩ := hf ps a s' ha hps b s'' hb
  refine ⟨ps ++ qs, hqs, fun hpart => ?_⟩
  rw [List.mem_append, not_or] at hpart
  rw [bind_of_ok (hsame hpart.1)]
  exact hsame' hpart.2

/-- What is done before the first part counts for nothing. -/
lemma step (hf : ∀ a s', m s = .ok a s' → Gathers part s' (f a) (g a) R) :
    Gathers part s (m >>= f) (m >>= g) R := by
  refine bind (P := fun ps _ _ => ps = []) (rest fun _ _ _ => rfl) ?_
  rintro ps a s' ha rfl
  exact hf a s' ha

/-- A step that gives one result only. -/
lemma run {a : α} {s' : State} (hm : m s = .ok a s') (hf : Gathers part s' (f a) (g a) R) :
    Gathers part s (m >>= f) (m >>= g) R := by
  refine step fun b t hb => ?_
  cases hm.symm.trans hb
  exact hf

lemma kind {f g : Kind → Check β} (hf : Gathers part s (f s.cursor.kind) (g s.cursor.kind) R) :
    Gathers part s (kind >>= f) (kind >>= g) R :=
  run rfl hf

lemma advance {f g : Token → Check β}
    (hf : Gathers part { s with cursor := s.cursor.advance } (f s.cursor.current)
      (g s.cursor.current) R) :
    Gathers part s (advance >>= f) (advance >>= g) R :=
  run rfl hf

lemma ite {p : Prop} [Decidable p] {m' n' : Check α} (h : p → Gathers part s m n Q)
    (h' : ¬ p → Gathers part s m' n' Q) :
    Gathers part s (if p then m else m') (if p then n else n') Q := by
  split
  case isTrue hp => exact h hp
  case isFalse hp => exact h' hp

end Gathers

/-- What a reader reads is one of the parts of its result. -/
lemma ReadsPart.exists_mem {reader : ExprReader → Check Facts} {r : Facts} {s' : State}
    {Q : List Facts → Facts → State → Prop} (hpart : ReadsPart reader expr s part)
    (h : Gathers part s (reader expr) (reader (refusing part expr)) Q)
    (hrun : reader expr s = .ok r s') : ∃ parts, Q parts r s' ∧ part ∈ parts := by
  obtain ⟨parts, hparts, hsame⟩ := h r s' hrun
  refine ⟨parts, hparts, ?_⟩
  by_contra hnot
  obtain ⟨e, t, herror⟩ := hpart
  cases herror.symm.trans (hsame hnot)

/-! ### Runs -/

lemma exists_of_run' {a : α} (h : m.run' s = some a) : ∃ s', m s = .ok a s' := by
  delta EStateM.run' EStateM.run at h
  cases hrun : m s with
  | ok b s' =>
      rw [hrun] at h
      cases h
      exact ⟨s', rfl⟩
  | error e s' =>
      rw [hrun] at h
      cases h

lemma exists_error_of_run' (h : m.run' s = none) : ∃ e s', m s = .error e s' := by
  delta EStateM.run' EStateM.run at h
  cases hrun : m s with
  | ok b s' =>
      rw [hrun] at h
      cases h
  | error e s' => exact ⟨e, s', rfl⟩

/-! ### Argument lists -/

/-- Reading on, the arguments are those before and then the parts. -/
lemma gathers_argumentsFrom (bound : Nat) (args : List Facts) (s : State) :
    Gathers part s (argumentsFrom expr bound args) (argumentsFrom (refusing part expr) bound args)
      fun parts all _ => all = args ++ parts := by
  induction bound generalizing args s with
  | zero => exact .fails rfl
  | succ bound ih =>
      refine .step fun here _ _ => .ite (fun _ => .pure (by simp)) fun _ => .ite (fun _ => ?_) fun _ => ?_
      · exact .step fun _ _ _ => ih args _
      · refine .bind (.single _) ?_
        rintro _ arg _ - rfl
        refine .step fun next _ _ => .ite (fun _ => ?_) fun _ => .fails rfl
        exact (ih (args ++ [arg]) _).mono fun parts all _ h => by simpa using h

/-- The arguments are the parts of an argument list. -/
lemma gathers_arguments (s : State) :
    Gathers part s (arguments expr) (arguments (refusing part expr)) fun parts args _ =>
      parts = args := by
  refine .step fun _ _ _ => .step fun bound _ _ => ?_
  refine (gathers_argumentsFrom bound [] _).bind ?_
  rintro parts args _ - rfl
  exact .step fun _ _ _ => .pure (by simp)

end Check

end ScriptCheck
