import Mathlib.Logic.Relation
import ScriptCheck.Analysis.Program
import ScriptCheck.Proofs.Token.Progress

/-!
Ways through the tokens of a file.

Readers take tokens one after the other. Most tokens are simple: they are no braces, no annotations
and no words that a declaration starts with. `SimpleStep`, `ExprStep` and `HeaderStep` say what is
taken by a type, an expression and a header. Whatever is taken as a whole has balanced braces
(`Balanced`), so that a block can be passed over without reading what is in it
(`passBlock_of_balanced`).
-/

namespace ScriptCheck

open Relation

/-- No brace, no delimiter of an annotation, no word that a declaration starts with, and not the
end. -/
def Kind.isSimple : Kind → Bool
  | .openCurly | .closeCurly | .openNote | .closeNote => false
  | .kwClass | .kwInterface | .kwAbstract | .kwFinal | .kwFunction => false
  | .eof => false
  | _ => true

/-- A brace, or the end. -/
def Kind.isBrace : Kind → Bool
  | .openCurly | .closeCurly | .eof => true
  | _ => false

namespace Cursor

variable {c d e : Cursor}

/-- The token before the cursor is of the kind. -/
def After (kind : Kind) (c : Cursor) : Prop :=
  ∃ i, c.index = i + 1 ∧ (c.tokens[i]?).map (·.kind) = some kind

lemma after_advance (hc : c.IsProper) (hne : c.kind ≠ .eof) : c.advance.After c.kind := by
  rw [advance_eq_of_ne hne]
  refine ⟨c.index, rfl, ?_⟩
  rw [Array.getElem?_eq_getElem hc.inside, ← current_eq hc.inside]
  rfl

/-- The token at the cursor follows `::`. -/
def FollowsColons (c : Cursor) : Prop :=
  ∃ i, c.index = i + 1 ∧ (c.tokens[i]?).map (·.kind) = some .doubleColon

lemma followsColons_advance (hc : c.IsProper) (hkind : c.kind = .doubleColon) :
    c.advance.FollowsColons := by
  have hafter := after_advance hc (by simp [hkind])
  rwa [hkind] at hafter

/-- The token ahead is the one to be read after the next. -/
lemma kind_advance (hc : c.IsProper) (hne : c.kind ≠ .eof) : c.advance.kind = c.kindAhead 1 := by
  have hinside := hc.advance.inside
  rw [advance_eq_of_ne hne] at hinside ⊢
  rw [kind, current_eq hinside, kindAhead, ahead?, Array.getElem?_eq_getElem hinside]
  rfl

lemma kindAhead_advance (hne : c.kind ≠ .eof) (i : Nat) :
    c.advance.kindAhead i = c.kindAhead (i + 1) := by
  rw [advance_eq_of_ne hne, kindAhead, kindAhead, ahead?, ahead?, Nat.add_assoc, Nat.add_comm 1]

/-! ### Steps -/

/-- A simple token is taken. -/
def SimpleStep (c d : Cursor) : Prop :=
  c.kind.isSimple = true ∧ d = c.advance

/-- A token of an expression is taken: a simple one, or `class` after `::`. -/
inductive ExprStep (c : Cursor) : Cursor → Prop
  | simple (h : c.kind.isSimple = true) : ExprStep c c.advance
  | access (h : c.kind = .kwClass) (hcolons : c.FollowsColons) : ExprStep c c.advance

/-- A token of an expression or an annotation is taken. -/
inductive HeaderStep (c : Cursor) : Cursor → Prop
  | expr {d : Cursor} (h : ExprStep c d) : HeaderStep c d
  | note {d : Cursor} (hopen : c.kind = .openNote) (hcontent : ReflTransGen SimpleStep c.advance d)
      (hclose : d.kind = .closeNote) : HeaderStep c d.advance

/-- Tokens are taken in which every brace has its partner. -/
inductive Balanced : Cursor → Cursor → Prop
  | refl (c : Cursor) : Balanced c c
  | token {c d : Cursor} (h : c.kind.isBrace = false) (hrest : Balanced c.advance d) : Balanced c d
  | block {c d e : Cursor} (hopen : c.kind = .openCurly) (hinside : Balanced c.advance d)
      (hclose : d.kind = .closeCurly) (hrest : Balanced d.advance e) : Balanced c e

lemma isBrace_of_isSimple {kind : Kind} (h : kind.isSimple = true) : kind.isBrace = false := by
  cases kind <;> first | rfl | cases h

lemma ne_eof_of_not_isBrace (h : c.kind.isBrace = false) : c.kind ≠ .eof := by
  intro heof
  rw [heof] at h
  cases h

lemma ExprStep.of_simple (h : SimpleStep c d) : ExprStep c d := by
  obtain ⟨hsimple, rfl⟩ := h
  exact .simple hsimple

/-! ### Balanced tokens -/

namespace Balanced

lemma trans (h : Balanced c d) (h' : Balanced d e) : Balanced c e := by
  induction h with
  | refl => exact h'
  | token hkind _ ih => exact .token hkind (ih h')
  | block hopen hinside hclose _ _ ih => exact .block hopen hinside hclose (ih h')

lemma single (h : c.kind.isBrace = false) : Balanced c c.advance :=
  .token h (.refl _)

lemma of_path {step : Cursor → Cursor → Prop} (hstep : ∀ {c d}, step c d → Balanced c d)
    (h : ReflTransGen step c d) : Balanced c d := by
  induction h with
  | refl => exact .refl _
  | tail _ hlast ih => exact ih.trans (hstep hlast)

lemma of_simple (h : SimpleStep c d) : Balanced c d := by
  obtain ⟨hsimple, rfl⟩ := h
  exact .single (isBrace_of_isSimple hsimple)

lemma of_expr (h : ExprStep c d) : Balanced c d := by
  cases h with
  | simple hsimple => exact .single (isBrace_of_isSimple hsimple)
  | access hclass => exact .single (by rw [hclass]; rfl)

end Balanced

lemma rest_eq_cons (hc : c.IsProper) (hne : c.kind ≠ .eof) :
    c.rest = c.current :: c.advance.rest := by
  rw [rest, rest, advance_eq_of_ne hne, current_eq hc.inside]
  exact List.drop_eq_getElem_cons (by simpa using hc.inside)

/-- The place after the brace that closes so many open blocks, and whether it is there. -/
def closeAt (depth : Nat) (c : Cursor) : Nat × Bool :=
  (c.index + (throughClose depth c.rest).1, (throughClose depth c.rest).2)

lemma closeAt_of_token (hc : c.IsProper) (h : c.kind.isBrace = false) (depth : Nat) :
    closeAt depth c = closeAt depth c.advance := by
  have hne : c.kind ≠ .eof := by
    intro heof
    rw [heof] at h
    cases h
  rw [closeAt, closeAt, rest_eq_cons hc hne, advance_eq_of_ne hne, throughClose]
  split <;> simp_all [Kind.isBrace, kind, Nat.add_assoc, Nat.add_comm 1]

lemma closeAt_of_open (hc : c.IsProper) (h : c.kind = .openCurly) (depth : Nat) :
    closeAt depth c = closeAt (depth + 1) c.advance := by
  have hne : c.kind ≠ .eof := by simp [h]
  have hcurrent : c.current.kind = .openCurly := h
  rw [closeAt, closeAt, rest_eq_cons hc hne, advance_eq_of_ne hne, throughClose, hcurrent]
  simp [Nat.add_assoc, Nat.add_comm 1]

lemma closeAt_of_close (hc : c.IsProper) (h : c.kind = .closeCurly) (depth : Nat)
    (hdepth : 1 ≤ depth) : closeAt (depth + 1) c = closeAt depth c.advance := by
  have hne : c.kind ≠ .eof := by simp [h]
  have hcurrent : c.current.kind = .closeCurly := h
  have hopen : ¬ depth + 1 ≤ 1 := by omega
  rw [closeAt, closeAt, rest_eq_cons hc hne, advance_eq_of_ne hne, throughClose, hcurrent]
  simp [hopen, Nat.add_assoc, Nat.add_comm 1]

/-- Balanced tokens do not matter for where a block around them is closed. -/
lemma Balanced.closeAt_eq (h : Balanced c d) (hc : c.IsProper) (depth : Nat) (hdepth : 1 ≤ depth) :
    d.IsProper ∧ c.Onward d ∧ closeAt depth c = closeAt depth d := by
  induction h generalizing depth with
  | refl c => exact ⟨hc, .refl c, rfl⟩
  | token hkind _ ih =>
      obtain ⟨hd, honward, hclose⟩ := ih hc.advance depth hdepth
      exact ⟨hd, (onward_advance _).trans honward, (closeAt_of_token hc hkind depth).trans hclose⟩
  | block hopen _ hshut _ ihinside ihrest =>
      obtain ⟨hd, hinner, heq⟩ := ihinside hc.advance (depth + 1) (by omega)
      obtain ⟨he, hrest, heq'⟩ := ihrest hd.advance depth hdepth
      refine ⟨he, (((onward_advance _).trans hinner).trans (onward_advance _)).trans hrest, ?_⟩
      rw [closeAt_of_open hc hopen, heq, closeAt_of_close hd hshut depth hdepth, heq']

/-- A block with balanced tokens inside is passed over as a whole. -/
lemma passBlock_of_balanced (hc : c.IsProper) (hopen : c.kind = .openCurly)
    (hinside : Balanced c.advance d) (hclose : d.kind = .closeCurly) :
    c.passBlock = (.ok (), d.advance) := by
  obtain ⟨hd, honward, heq⟩ := hinside.closeAt_eq hc.advance 1 le_rfl
  have hne : d.kind ≠ .eof := by simp [hclose]
  have hcurrent : d.current.kind = .closeCurly := hclose
  have hend : closeAt 1 d = (d.index + 1, true) := by
    rw [closeAt, rest_eq_cons hd hne, throughClose, hcurrent]
    rfl
  rw [hend, closeAt, Prod.mk.injEq] at heq
  rw [passBlock, if_pos (beq_iff_eq.mpr hopen)]
  dsimp only
  rw [heq.1, if_pos heq.2, advance_eq_of_ne hne, honward.tokens, honward.file]

/-! ### Annotations -/

lemma dropWhile_rest_of_simple (hc : c.IsProper) (h : ReflTransGen SimpleStep c d) :
    d.IsProper ∧
      c.rest.dropWhile (fun token => token.kind != .closeNote && token.kind != .eof) =
        d.rest.dropWhile (fun token => token.kind != .closeNote && token.kind != .eof) := by
  induction h with
  | refl => exact ⟨hc, rfl⟩
  | @tail d e _ hlast ih =>
      obtain ⟨hd, heq⟩ := ih
      obtain ⟨hsimple, rfl⟩ := hlast
      have hne : d.kind ≠ .eof := by
        intro heof
        rw [heof] at hsimple
        cases hsimple
      have hnote : d.kind ≠ .closeNote := by
        intro hclose
        rw [hclose] at hsimple
        cases hsimple
      refine ⟨hd.advance, heq.trans ?_⟩
      rw [rest_eq_cons hd hne]
      exact List.dropWhile_cons_of_pos (by simpa using ⟨hnote, hne⟩)

lemma kindAhead_zero (hc : c.IsProper) : c.kindAhead 0 = c.kind := by
  rw [kindAhead, ahead?, Nat.add_zero, Array.getElem?_eq_getElem hc.inside, kind,
    current_eq hc.inside]
  rfl

lemma firstKind_rest (hc : c.IsProper) : firstKind c.rest = c.kind := by
  have hlt : c.index < c.tokens.toList.length := by simpa using hc.inside
  rw [rest, List.drop_eq_getElem_cons hlt, kind, current_eq hc.inside]
  rfl

/-- What stands after an annotation that can be read. -/
lemma afterNote_eq (hc : c.IsProper) (hopen : c.kind = .openNote)
    (hcontent : ReflTransGen SimpleStep c.advance d) (hclose : d.kind = .closeNote) :
    d.advance.IsProper ∧ c.afterNote = d.advance.rest := by
  obtain ⟨hd, heq⟩ := dropWhile_rest_of_simple hc.advance hcontent
  have hne : c.kind ≠ .eof := by simp [hopen]
  have hne' : d.kind ≠ .eof := by simp [hclose]
  have hcurrent : c.current.kind = .openNote := hopen
  have hcurrent' : d.current.kind = .closeNote := hclose
  refine ⟨hd.advance, ?_⟩
  rw [afterNote, rest_eq_cons hc hne, List.dropWhile_cons_of_pos (by simp [hcurrent]), heq,
    rest_eq_cons hd hne', List.dropWhile_cons_of_neg (by simp [hcurrent']), List.drop_one,
    List.tail_cons]

end Cursor

end ScriptCheck
