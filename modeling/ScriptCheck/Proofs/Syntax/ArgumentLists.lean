import ScriptCheck.Proofs.Raises.Parts
import ScriptCheck.Proofs.Recovery.Stmt

/-!
Argument lists and their grammar.

Between the parentheses of an argument list stands nothing, or arguments with commas between them
and after the last one. The grammar (`ArgumentList`) leaves open how many commas may stand together.
A round of the reader takes an argument or a comma, and of what came before it only asks whether
there was an argument at all. So it reads exactly the lists with one or more commas at each place
(`argument_lists_read_exactly`), and an argument may be left out (`left_out_argument_is_read`).
-/

namespace ScriptCheck.Check

/-! ### The grammar -/

/-- So many commas stand between the places of the states. -/
inductive Commas : Nat → State → State → Prop
  | none (s : State) : Commas 0 s s
  | more {n : Nat} {s t : State} (hcomma : s.cursor.kind = .comma)
      (hrest : Commas n { s with cursor := s.cursor.advance } t) : Commas (n + 1) s t

/-- Between the places stands nothing, an expression, or an expression, as many commas as may stand
together and further arguments. -/
inductive Arguments (together : Nat → Prop) : State → List Facts → State → Prop
  | none (s : State) : Arguments together s [] s
  | last {s t : State} {arg : Facts} (harg : expr .comma s = .ok arg t) :
      Arguments together s [arg] t
  | more {n : Nat} {s t u v : State} {arg : Facts} {args : List Facts}
      (harg : expr .comma s = .ok arg t) (hcommas : Commas n t u) (htogether : together n)
      (hrest : Arguments together u args v) : Arguments together s (arg :: args) v

/-- Between the places stand arguments in parentheses. -/
inductive ArgumentList (together : Nat → Prop) : State → List Facts → State → Prop
  | intro {s t : State} {args : List Facts} (hopen : s.cursor.kind = .openParen)
      (hargs : Arguments together { s with cursor := s.cursor.advance } args t)
      (hclose : t.cursor.kind = .closeParen) :
      ArgumentList together s args { t with cursor := t.cursor.advance }

variable {together : Nat → Prop} {n : Nat} {s t : State} {arg : Facts} {args rest all : List Facts}

lemma startsOperand_of_expr {power : Power} (h : expr power s = .ok arg t) :
    s.cursor.kind.startsOperand = true := by
  obtain ⟨_, _, hbound, h⟩ := exists_of_bind h
  cases hbound
  obtain ⟨left, u, hleft, -⟩ := exists_of_bind h
  rw [operand, bind_of_ok (kind_run s)] at hleft
  generalize s.cursor.kind = k at hleft ⊢
  cases k <;> first | rfl | cases hleft

/-- Where no expression starts, there are no arguments. -/
lemma Arguments.eq_none (h : Arguments together s args t)
    (hstart : s.cursor.kind.startsOperand = false) : args = [] ∧ t = s := by
  cases h with
  | none => exact ⟨rfl, rfl⟩
  | last harg | more harg => cases hstart.symm.trans (startsOperand_of_expr harg)

/-! ### What is read follows the grammar -/

/-- The rounds read commas, if there is an argument before them, and then arguments. -/
lemma arguments_of_argumentsFrom (h : argumentsFrom expr n args s = .ok all t) :
    ∃ k u rest, Commas k s u ∧ (args = [] → k = 0) ∧ Arguments (1 ≤ ·) u rest t ∧
      all = args ++ rest := by
  induction n generalizing args s with
  | zero => cases h
  | succ n ih =>
      rw [argumentsFrom, bind_of_ok (kind_run s)] at h
      split at h
      case isTrue =>
        cases h
        exact ⟨0, _, [], .none _, fun _ => rfl, .none _, (List.append_nil _).symm⟩
      split at h
      case isTrue hcomma =>
        obtain ⟨hkind, hargs⟩ : s.cursor.kind = .comma ∧ args ≠ [] := by simpa using hcomma
        obtain ⟨_, _, hadvance, h⟩ := exists_of_bind h
        cases hadvance
        obtain ⟨k, u, rest, hcommas, -, hrest, hall⟩ := ih h
        exact ⟨k + 1, u, rest, .more hkind hcommas, (absurd · hargs), hrest, hall⟩
      case isFalse =>
        obtain ⟨arg, s', harg, h⟩ := exists_of_bind h
        rw [bind_of_ok (kind_run s')] at h
        split at h
        case isFalse => cases h
        case isTrue hnext =>
          obtain ⟨k, u, rest, hcommas, -, hrest, hall⟩ := ih h
          refine ⟨0, s, arg :: rest, .none s, fun _ => rfl, ?_, by simpa using hall⟩
          cases hcommas with
          | more hkind hcommas => exact .more harg (.more hkind hcommas) (Nat.succ_pos _) hrest
          | none =>
              -- what is next starts no operand, so no argument follows
              have hstart : s'.cursor.kind.startsOperand = false := by
                rcases Bool.or_eq_true_iff.mp hnext with hkind | hkind <;>
                  rw [beq_iff_eq.mp hkind] <;> rfl
              obtain ⟨rfl, rfl⟩ := hrest.eq_none hstart
              exact .last harg

lemma argumentList_of_arguments (h : arguments expr s = .ok args t) :
    ArgumentList (1 ≤ ·) s args t := by
  obtain ⟨_, s₁, hopening, h⟩ := exists_of_bind h
  obtain ⟨hopen, rfl⟩ := require_ok hopening
  obtain ⟨_, _, hbound, h⟩ := exists_of_bind h
  cases hbound
  obtain ⟨all, s₂, hfrom, h⟩ := exists_of_bind h
  obtain ⟨_, s₃, hclosing, h⟩ := exists_of_bind h
  obtain ⟨hclose, rfl⟩ := require_ok hclosing
  cases h
  obtain ⟨k, u, rest, hcommas, hzero, hrest, rfl⟩ := arguments_of_argumentsFrom hfrom
  cases hzero rfl
  cases hcommas
  exact .intro hopen hrest hclose

/-! ### What follows the grammar is read -/

/-- The rounds pass over commas, unless they are spent. -/
lemma argumentsFrom_of_commas {k : Nat} (h : Commas k s t) (hargs : args ≠ []) (n : Nat) :
    (∃ u, argumentsFrom expr n args s = .error .spent u) ∨
      ∃ m, argumentsFrom expr n args s = argumentsFrom expr m args t := by
  induction h generalizing n with
  | none s => exact .inr ⟨n, rfl⟩
  | @more _ s _ hcomma _ ih =>
      cases n with
      | zero => exact .inl ⟨_, rfl⟩
      | succ n =>
          rw [argumentsFrom, bind_of_ok (kind_run s), hcomma, if_neg (by decide),
            if_pos (by simpa using hargs)]
          exact ih n

lemma argumentsFrom_close (h : s.cursor.kind = .closeParen) :
    argumentsFrom expr (n + 1) args s = .ok args s := by
  rw [argumentsFrom, bind_of_ok (kind_run s), h]
  rfl

lemma argumentsFrom_arg (h : expr .comma s = .ok arg t)
    (hnext : t.cursor.kind = .comma ∨ t.cursor.kind = .closeParen) :
    argumentsFrom expr (n + 1) args s = argumentsFrom expr n (args ++ [arg]) t := by
  have hstart := startsOperand_of_expr h
  have hclose : s.cursor.kind ≠ .closeParen := fun h => by rw [h] at hstart; cases hstart
  have hcomma : s.cursor.kind ≠ .comma := fun h => by rw [h] at hstart; cases hstart
  rw [argumentsFrom, bind_of_ok (kind_run s), if_neg (by simpa using hclose),
    if_neg (by simp [hcomma]), bind_of_ok h, bind_of_ok (kind_run t), if_pos (by simpa using hnext)]

/-- The rounds read arguments, unless they are spent. -/
lemma argumentsFrom_of_arguments (h : Arguments (1 ≤ ·) s rest t)
    (hclose : t.cursor.kind = .closeParen) (n : Nat) (args : List Facts) :
    (∃ u, argumentsFrom expr n args s = .error .spent u) ∨
      argumentsFrom expr n args s = .ok (args ++ rest) t := by
  induction h generalizing n args with
  | none s =>
      cases n with
      | zero => exact .inl ⟨_, rfl⟩
      | succ n => exact .inr (by rw [argumentsFrom_close hclose, List.append_nil])
  | last harg =>
      cases n with
      | zero => exact .inl ⟨_, rfl⟩
      | succ n =>
          rw [argumentsFrom_arg harg (.inr hclose)]
          cases n with
          | zero => exact .inl ⟨_, rfl⟩
          | succ n => exact .inr (argumentsFrom_close hclose)
  | @more k s t u v arg rest harg hcommas htogether _ ih =>
      cases n with
      | zero => exact .inl ⟨_, rfl⟩
      | succ n =>
          have hcomma : t.cursor.kind = .comma := by
            cases hcommas with
            | none => cases htogether
            | more hcomma _ => exact hcomma
          rw [argumentsFrom_arg harg (.inl hcomma)]
          have hargs : args ++ [arg] ≠ [] := List.append_ne_nil_of_right_ne_nil args (by simp)
          obtain hspent | ⟨m, hrun⟩ := argumentsFrom_of_commas hcommas hargs n
          · exact .inl hspent
          · rw [hrun, List.append_cons args arg rest]
            exact ih hclose m _

/-- **Argument lists follow their grammar, with one or more commas.** An argument list is read only if
there are parentheses with nothing between them, or with expressions, commas between two of them and
perhaps commas after the last one. There is one result for each expression. On symbols that end in
their only end token the reader comes to an end, and it reads every such list. -/
theorem argument_lists_read_exactly (s : State) :
    (∀ args s', arguments expr s = .ok args s' → ArgumentList (1 ≤ ·) s args s') ∧
    (s.cursor.IsProper → GoesOn (arguments expr) s ∧
      ∀ args s', ArgumentList (1 ≤ ·) s args s' → arguments expr s = .ok args s') := by
  refine ⟨fun _ _ => argumentList_of_arguments, fun hs => ?_⟩
  have hends : GoesOn (arguments expr) s :=
    (opens_arguments fun power => consumes_expr (w := .expression) power).reads.goesOn hs
  refine ⟨hends, ?_⟩
  rintro args _ ⟨hopen, hargs, hclose⟩
  rw [GoesOn] at hends
  rw [arguments, bind_of_ok (require_of_kind hopen), bind_of_ok (show bound _ = .ok _ _ from rfl)]
    at hends ⊢
  obtain ⟨u, hspent⟩ | hrun :=
    argumentsFrom_of_arguments hargs hclose (s.cursor.advance.remaining + 1) []
  · rw [bind_of_error hspent] at hends
    exact hends.elim
  · rw [bind_of_ok hrun, bind_of_ok (require_of_kind hclose)]
    rfl

/-- An argument left out, and a comma after the last: `(1,,1,)` -/
def leftOut : List Kind :=
  [.openParen, .number, .comma, .comma, .number, .comma, .closeParen]

lemma arguments_leftOut :
    ∃ args s', arguments expr (aheadOf leftOut) = .ok args s' ∧ args.length = 2 := by
  have hlength : ((arguments expr).run' (aheadOf leftOut)).map List.length = some 2 := by
    decide +kernel
  obtain ⟨args, hargs, hlength⟩ := Option.map_eq_some_iff.mp hlength
  obtain ⟨s', hrun⟩ := exists_of_run' hargs
  exact ⟨args, s', hrun, hlength⟩

theorem argument_lists_read_exactly_leftOut :
    (aheadOf leftOut).cursor.IsProper ∧ GoesOn (arguments expr) (aheadOf leftOut) ∧
      ∃ args s', args.length = 2 ∧ ArgumentList (1 ≤ ·) (aheadOf leftOut) args s' := by
  have hs : (aheadOf leftOut).cursor.IsProper := isProper_aheadOf (by decide)
  obtain ⟨args, s', hrun, hlength⟩ := arguments_leftOut
  obtain ⟨hlist, hread⟩ := argument_lists_read_exactly (aheadOf leftOut)
  exact ⟨hs, (hread hs).1, args, s', hlength, hlist args s' hrun⟩

/-- The list with an argument left out is read, although no comma may stand next to another one. A
call with such a list is not reported, while an array is. -/
theorem left_out_argument_is_read :
    (∃ args s', arguments expr (aheadOf leftOut) = .ok args s' ∧
      ¬ArgumentList (· = 1) (aheadOf leftOut) args s') ∧
    (checkSource "function f($a, $b) \x7b \x7d f(1,,2);" "main" {}).entries = [] ∧
    (checkSource "[1,,2];" "main" {}).entries ≠ [] := by
  obtain ⟨args, s', hrun, -⟩ := arguments_leftOut
  refine ⟨⟨args, s', hrun, ?_⟩, by decide +kernel⟩
  rintro ⟨-, hargs, hclose⟩
  have hfirst : ∀ facts t, expr .comma { aheadOf leftOut with
      cursor := (aheadOf leftOut).cursor.advance } = .ok facts t →
        t.cursor.kind = .comma ∧ t.cursor.advance.kind = .comma := by
    intro facts t hrun
    have hend : (endState (.ok facts t)).cursor.kind = .comma ∧
        (endState (.ok facts t)).cursor.advance.kind = .comma := by
      rw [← hrun]
      decide +kernel
    exact hend
  cases hargs with
  | none => exact absurd hclose (by decide)
  | last harg => cases (hfirst _ _ harg).1.symm.trans hclose
  | more harg hcommas htogether hrest =>
      have hkind := (hfirst _ _ harg).2
      cases htogether
      obtain _ | ⟨_, _ | _⟩ := hcommas
      obtain ⟨-, rfl⟩ := hrest.eq_none (congrArg Kind.startsOperand hkind)
      cases hkind.symm.trans hclose

end ScriptCheck.Check
