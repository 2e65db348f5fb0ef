import ScriptCheck.Proofs.Syntax.Path

/-!
Braces among the tokens that are taken.

A list of tokens is balanced if no part from its start closes more blocks than it opens, and all of
it closes what it opens (`IsBalanced`). A way through tokens on which every brace has its partner
takes a balanced list (`Cursor.Balanced.isBalanced`). The tokens of a broken statement that are
passed over are such a way from where the statement broke off, unless the file ends in them
(`Cursor.balanced_resume`).
-/

namespace ScriptCheck

/-! ### Balanced lists -/

/-- The number of blocks that the tokens open. -/
def opened (tokens : List Token) : Nat := tokens.countP (·.kind == .openCurly)

/-- The number of blocks that they close. -/
def closed (tokens : List Token) : Nat := tokens.countP (·.kind == .closeCurly)

/-- No part from the start closes more blocks than it opens, and all of it closes what it opens. -/
structure IsBalanced (tokens : List Token) : Prop where
  nested : ∀ n, closed (tokens.take n) ≤ opened (tokens.take n)
  even : closed tokens = opened tokens

lemma opened_append (xs ys : List Token) : opened (xs ++ ys) = opened xs + opened ys :=
  List.countP_append

lemma closed_append (xs ys : List Token) : closed (xs ++ ys) = closed xs + closed ys :=
  List.countP_append

lemma opened_cons (token : Token) (xs : List Token) :
    opened (token :: xs) = opened xs + if token.kind == .openCurly then 1 else 0 :=
  List.countP_cons

lemma closed_cons (token : Token) (xs : List Token) :
    closed (token :: xs) = closed xs + if token.kind == .closeCurly then 1 else 0 :=
  List.countP_cons

namespace IsBalanced

variable {xs ys : List Token} {token token' : Token}

lemma nil : IsBalanced [] where
  nested n := by rw [List.take_nil]; exact le_rfl
  even := rfl

lemma cons (hopen : token.kind ≠ .openCurly) (hclose : token.kind ≠ .closeCurly)
    (h : IsBalanced xs) : IsBalanced (token :: xs) where
  nested n := by
    cases n with
    | zero => exact le_rfl
    | succ n => simpa [opened_cons, closed_cons, hopen, hclose] using h.nested n
  even := by simpa [opened_cons, closed_cons, hopen, hclose] using h.even

/-- A balanced list in braces, before another one. -/
lemma block (hopen : token.kind = .openCurly) (hclose : token'.kind = .closeCurly)
    (h : IsBalanced xs) (h' : IsBalanced ys) : IsBalanced (token :: (xs ++ token' :: ys)) where
  nested n := by
    cases n with
    | zero => exact le_rfl
    | succ n =>
        have hinside := h.nested n
        rw [List.take_succ_cons, List.take_append, opened_cons, closed_cons, opened_append,
          closed_append, hopen]
        -- the list may end before its closing brace or after it
        cases n - xs.length with
        | zero =>
            rw [List.take_zero]
            exact Nat.le_succ_of_le hinside
        | succ k =>
            have hafter := h'.nested k
            rw [List.take_succ_cons, opened_cons, closed_cons, hclose]
            simp only [beq_self_eq_true, reduceIte, reduceCtorEq, beq_iff_eq]
            omega
  even := by
    rw [opened_cons, closed_cons, opened_append, closed_append, opened_cons, closed_cons, hopen,
      hclose, h.even, h'.even]
    simp only [beq_self_eq_true, reduceIte, reduceCtorEq, beq_iff_eq]
    omega

end IsBalanced

namespace Cursor

variable {c d e : Cursor}

/-! ### The tokens that are taken -/

/-- The tokens from the first cursor up to the second. -/
def taken (c d : Cursor) : List Token :=
  c.rest.take (d.index - c.index)

lemma taken_self (c : Cursor) : taken c c = [] := by
  rw [taken, Nat.sub_self, List.take_zero]

lemma taken_eq_cons (hc : c.IsProper) (hne : c.kind ≠ .eof) (h : c.advance.Onward d) :
    taken c d = c.current :: taken c.advance d := by
  have hle := h.le
  rw [advance_eq_of_ne hne] at hle
  have hindex : d.index - c.index = (d.index - (c.index + 1)) + 1 := by
    change c.index + 1 ≤ d.index at hle
    omega
  rw [taken, rest_eq_cons hc hne, hindex, List.take_succ_cons, taken, advance_eq_of_ne hne]

lemma taken_append (hcd : c.Onward d) (hde : d.Onward e) :
    taken c e = taken c d ++ taken d e := by
  have hle := hcd.le
  have hle' := hde.le
  have hrest : d.rest = c.rest.drop (d.index - c.index) := by
    rw [rest, rest, hcd.tokens, List.drop_drop, Nat.add_sub_cancel' hle]
  rw [taken, taken, taken, hrest, ← List.take_add]
  congr 1
  omega

/-- Where every brace has its partner, the tokens that are taken are a balanced list. -/
lemma Balanced.isBalanced (h : Balanced c d) (hc : c.IsProper) :
    d.IsProper ∧ c.Onward d ∧ IsBalanced (taken c d) := by
  induction h with
  | refl c =>
      rw [taken_self]
      exact ⟨hc, .refl c, .nil⟩
  | @token c d hkind _ ih =>
      obtain ⟨hd, honward, hbalanced⟩ := ih hc.advance
      have hopen : c.current.kind ≠ .openCurly := by
        intro h
        rw [kind, h] at hkind
        cases hkind
      have hclose : c.current.kind ≠ .closeCurly := by
        intro h
        rw [kind, h] at hkind
        cases hkind
      rw [taken_eq_cons hc (ne_eof_of_not_isBrace hkind) honward]
      exact ⟨hd, (onward_advance c).trans honward, .cons hopen hclose hbalanced⟩
  | @block c d e hopen _ hclose _ ihinside ihrest =>
      obtain ⟨hd, hinside, hbalanced⟩ := ihinside hc.advance
      obtain ⟨he, hrest, hbalanced'⟩ := ihrest hd.advance
      have hafter := (onward_advance d).trans hrest
      rw [taken_eq_cons hc (by simp [hopen]) (hinside.trans hafter), taken_append hinside hafter,
        taken_eq_cons hd (by simp [hclose]) hrest]
      exact ⟨he, ((onward_advance c).trans hinside).trans hafter,
        .block hopen hclose hbalanced hbalanced'⟩

/-! ### Broken statements -/

/-- Tokens are taken in which every brace has its partner, apart from so many that close blocks
which were open before. -/
inductive Unwinds : Nat → Cursor → Cursor → Prop
  | done {c d : Cursor} (h : Balanced c d) : Unwinds 0 c d
  | close {n : Nat} {c d e : Cursor} (h : Balanced c d) (hclose : d.kind = .closeCurly)
      (hrest : Unwinds n d.advance e) : Unwinds (n + 1) c e

namespace Unwinds

variable {n : Nat}

lemma after (h : Balanced c d) (h' : Unwinds n d e) : Unwinds n c e := by
  cases h' with
  | done hd => exact .done (h.trans hd)
  | close hd hclose hrest => exact .close (h.trans hd) hclose hrest

/-- A block that is opened is closed by the first of the braces. -/
lemma block (hopen : c.kind = .openCurly) (h : Unwinds (n + 1) c.advance e) : Unwinds n c e := by
  cases h with
  | close hinside hclose hrest => exact .after (.block hopen hinside hclose (.refl _)) hrest

end Unwinds

/-- The place after the tokens of a broken statement, from inside so many blocks of its own. -/
def pastBroken (depth : Nat) (c : Cursor) : Cursor :=
  { c with index := c.index + brokenLength depth c.rest }

section

variable (hc : c.IsProper) (depth : Nat)
include hc

lemma pastBroken_of_eof (h : c.kind = .eof) : pastBroken depth c = c := by
  have hcurrent : c.current.kind = .eof := h
  have hlt : c.index < c.tokens.toList.length := by simpa using hc.inside
  have hrest : c.rest = c.current :: c.tokens.toList.drop (c.index + 1) := by
    rw [rest, List.drop_eq_getElem_cons hlt, current_eq hc.inside]
    rfl
  rw [pastBroken, hrest, brokenLength, hcurrent]
  rfl

lemma pastBroken_of_open (h : c.kind = .openCurly) :
    pastBroken depth c = pastBroken (depth + 1) c.advance := by
  have hne : c.kind ≠ .eof := by simp [h]
  have hcurrent : c.current.kind = .openCurly := h
  rw [pastBroken, pastBroken, rest_eq_cons hc hne, advance_eq_of_ne hne, brokenLength, hcurrent]
  simp [Nat.add_assoc, Nat.add_comm 1]

lemma pastBroken_of_close (h : c.kind = .closeCurly) :
    pastBroken 0 c = c ∧ pastBroken (depth + 1) c = pastBroken depth c.advance := by
  have hne : c.kind ≠ .eof := by simp [h]
  have hcurrent : c.current.kind = .closeCurly := h
  rw [pastBroken, pastBroken, pastBroken, rest_eq_cons hc hne, advance_eq_of_ne hne, brokenLength,
    brokenLength, hcurrent]
  simp [Nat.add_assoc, Nat.add_comm 1]

/-- A semicolon ends a statement, but not inside its blocks. -/
lemma pastBroken_of_token (h : c.kind.isBrace = false) :
    (c.kind = .semicolon ∧ depth = 0 ∧ pastBroken depth c = c.advance) ∨
      pastBroken depth c = pastBroken depth c.advance := by
  have hne := ne_eof_of_not_isBrace h
  rw [kind] at h
  rw [pastBroken, pastBroken, rest_eq_cons hc hne, advance_eq_of_ne hne, brokenLength]
  split <;> simp_all [Kind.isBrace, kind, Nat.add_assoc, Nat.add_comm 1]

/-- From inside some blocks, the tokens of a broken statement close these blocks, unless the file
ends before. -/
lemma unwinds_pastBroken :
    (pastBroken depth c).kind = .eof ∨ Unwinds depth c (pastBroken depth c) := by
  -- on the number of tokens left, for every depth: a brace that opens makes it deeper
  induction hlen : c.rest.length generalizing c depth with
  | zero =>
      have hinside := hc.inside
      rw [length_rest] at hlen
      omega
  | succ len ih =>
      by_cases heof : c.kind = .eof
      · rw [pastBroken_of_eof hc depth heof]
        exact .inl heof
      have hnext : c.advance.rest.length = len := by
        rw [rest_eq_cons hc heof] at hlen
        exact Nat.succ_injective hlen
      by_cases hopen : c.kind = .openCurly
      · rw [pastBroken_of_open hc depth hopen]
        exact (ih hc.advance (depth + 1) hnext).imp_right (.block hopen)
      by_cases hclose : c.kind = .closeCurly
      · cases depth with
        | zero =>
            rw [(pastBroken_of_close hc 0 hclose).1]
            exact .inr (.done (.refl c))
        | succ depth =>
            rw [(pastBroken_of_close hc depth hclose).2]
            exact (ih hc.advance depth hnext).imp_right (.close (.refl c) hclose)
      have htoken : c.kind.isBrace = false := by
        cases hkind : c.kind <;> first | rfl | contradiction
      rcases pastBroken_of_token hc depth htoken with ⟨-, rfl, hend⟩ | hend
      · rw [hend]
        exact .inr (.done (.single htoken))
      · rw [hend]
        exact (ih hc.advance depth hnext).imp_right (.after (.single htoken))

end

/-- From where a statement broke off, the tokens that are passed over are balanced, unless the file
ends in them. A statement that broke off at its first token must not start with a brace. -/
lemma balanced_resume (hc : c.IsProper) {start : Nat}
    (h : c.index = start → c.kind = .eof ∨ c.kind.isBrace = false) :
    (c.resume start).kind = .eof ∨ Balanced c (c.resume start) := by
  have hpast : ∀ d : Cursor, d.IsProper →
      (pastBroken 0 d).kind = .eof ∨ Balanced d (pastBroken 0 d) := by
    intro d hd
    refine (unwinds_pastBroken hd 0).imp_right fun hunwinds => ?_
    cases hunwinds with
    | done hbalanced => exact hbalanced
  rw [resume]
  split
  case isFalse => exact hpast c hc
  case isTrue hstart =>
    rcases h hstart with heof | htoken
    · rw [advance_eq_of_eof heof]
      exact hpast c hc
    · exact (hpast c.advance hc.advance).imp_right (.trans (.single htoken))

end Cursor

end ScriptCheck
