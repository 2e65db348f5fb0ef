import Mathlib.Tactic
import ScriptCheck.Token.Cursor

/-!
Moves of the cursor.

A cursor is proper if its tokens end in their only end token and it stands on one of them
(`Cursor.IsProper`). Every move keeps it proper and goes forward: a single step (`advance`), the
passing of a block (`passBlock`) and of a broken statement (`resume`). A step moves unless the
cursor is at the end, and so does the passing of a statement that started at the cursor
(`lt_resume_index`).
-/

namespace ScriptCheck.Cursor

/-- The cursor stands on a token, and the last token is the only end token. -/
structure IsProper (c : Cursor) : Prop where
  inside : c.index < c.tokens.size
  ends : ∀ (i : Nat) (h : i < c.tokens.size), c.tokens[i].kind = .eof ↔ i + 1 = c.tokens.size

/-- The second cursor stands in the same tokens, at the same place or further on. -/
structure Onward (c d : Cursor) : Prop where
  tokens : d.tokens = c.tokens
  file : d.file = c.file
  le : c.index ≤ d.index

namespace Onward

lemma refl (c : Cursor) : c.Onward c := ⟨rfl, rfl, le_refl _⟩

lemma trans {a b c : Cursor} (hab : a.Onward b) (hbc : b.Onward c) : a.Onward c :=
  ⟨hbc.tokens.trans hab.tokens, hbc.file.trans hab.file, hab.le.trans hbc.le⟩

/-- A cursor that has not moved is the same. -/
lemma eq_of_index {c d : Cursor} (h : c.Onward d) (hindex : d.index = c.index) : d = c := by
  obtain ⟨file, tokens, index⟩ := d
  obtain ⟨htokens, hfile, -⟩ := h
  cases htokens
  cases hfile
  cases hindex
  rfl

end Onward

variable {c d : Cursor}

lemma IsProper.of_onward (hc : c.IsProper) (hd : c.Onward d) (hlt : d.index < c.tokens.size) :
    d.IsProper := by
  refine ⟨hd.tokens ▸ hlt, fun i hi => ?_⟩
  have hi' : i < c.tokens.size := hd.tokens ▸ hi
  simpa only [hd.tokens] using hc.ends i hi'

lemma IsProper.one_le_remaining (hc : c.IsProper) : 1 ≤ c.remaining := by
  have := hc.inside
  rw [remaining]
  omega

lemma current_eq (h : c.index < c.tokens.size) : c.current = c.tokens[c.index] := by
  simp [current, h]

lemma IsProper.kind_eq_eof_iff (hc : c.IsProper) :
    c.kind = .eof ↔ c.index + 1 = c.tokens.size := by
  rw [kind, current_eq hc.inside]
  exact hc.ends c.index hc.inside

lemma IsProper.moveTo_zero (hc : c.IsProper) : (c.moveTo 0).IsProper := by
  refine ⟨?_, hc.ends⟩
  have hinside := hc.inside
  show min 0 (c.tokens.size - 1) < c.tokens.size
  omega

/-! ### Single steps -/

lemma advance_eq_of_ne (h : c.kind ≠ .eof) : c.advance = { c with index := c.index + 1 } := by
  rw [advance, if_neg (by simpa using h)]

lemma advance_eq_of_eof (h : c.kind = .eof) : c.advance = c := by
  rw [advance, if_pos (by simpa using h)]

lemma onward_advance (c : Cursor) : c.Onward c.advance := by
  by_cases h : c.kind = .eof
  · rw [advance_eq_of_eof h]
    exact .refl c
  · rw [advance_eq_of_ne h]
    exact ⟨rfl, rfl, Nat.le_succ _⟩

lemma IsProper.advance (hc : c.IsProper) : c.advance.IsProper := by
  refine hc.of_onward c.onward_advance ?_
  by_cases h : c.kind = .eof
  · rw [advance_eq_of_eof h]
    exact hc.inside
  · rw [advance_eq_of_ne h]
    have hne : c.index + 1 ≠ c.tokens.size := fun he => h (hc.kind_eq_eof_iff.mpr he)
    have hlt := hc.inside
    show c.index + 1 < c.tokens.size
    omega

lemma lt_advance_index (h : c.kind ≠ .eof) : c.index < c.advance.index := by
  rw [advance_eq_of_ne h]
  exact Nat.lt_succ_self _

/-! ### Several tokens at once -/

/-- Some token of the list is an end token. -/
def HasEnd (l : List Token) : Prop := ∃ token ∈ l, token.kind = .eof

lemma HasEnd.tail {token : Token} {l : List Token} (h : HasEnd (token :: l))
    (hne : token.kind ≠ .eof) : HasEnd l := by
  obtain ⟨x, hx, he⟩ := h
  rcases List.mem_cons.mp hx with rfl | hx
  · exact absurd he hne
  · exact ⟨x, hx, he⟩

lemma IsProper.hasEnd_rest (hc : c.IsProper) : HasEnd c.rest := by
  have hpos := hc.inside
  have hlast : c.tokens.size - 1 < c.tokens.size := by omega
  refine ⟨c.tokens[c.tokens.size - 1], ?_, (hc.ends _ hlast).mpr (by omega)⟩
  rw [rest, List.mem_drop_iff_getElem]
  exact ⟨c.tokens.size - 1 - c.index, by simp; omega, by
    simp only [Array.getElem_toList]
    congr 1
    omega⟩

lemma length_rest (c : Cursor) : c.rest.length = c.tokens.size - c.index := by
  simp [rest]

/-- The counted tokens of a block end before the end token. -/
lemma throughClose_lt (depth : Nat) {l : List Token} (h : HasEnd l) :
    (throughClose depth l).1 < l.length := by
  induction l generalizing depth with
  | nil =>
      obtain ⟨x, hx, -⟩ := h
      simp at hx
  | cons token l ih =>
      rw [throughClose]
      split
      · simp
      · split
        · have hl := ih depth (h.tail (by simp [*]))
          simp only [List.length_cons]
          omega
        · have hl := ih (depth - 1) (h.tail (by simp [*]))
          simpa using hl
      · have hl := ih (depth + 1) (h.tail (by simp [*]))
        simpa using hl
      · have hl := ih depth (h.tail (by assumption))
        simpa using hl

/-- The tokens of a broken statement end before the end token. -/
lemma brokenLength_lt (depth : Nat) {l : List Token} (h : HasEnd l) :
    brokenLength depth l < l.length := by
  induction l generalizing depth with
  | nil =>
      obtain ⟨x, hx, -⟩ := h
      simp at hx
  | cons token l ih =>
      have step : ∀ depth, token.kind ≠ .eof → brokenLength depth l + 1 < (token :: l).length := by
        intro depth hne
        simpa using ih depth (h.tail hne)
      rw [brokenLength]
      split
      · simp
      · split
        · have := step depth (by simp [*])
          omega
        · exact step depth (by simp [*])
      · split
        · simp
        · exact step (depth - 1) (by simp [*])
      · exact step (depth + 1) (by simp [*])
      · exact step depth (by assumption)

/-- Moving over tokens that end before the end token. -/
lemma IsProper.skip (hc : c.IsProper) {n : Nat} (hn : n < c.rest.length) :
    c.Onward { c with index := c.index + n } ∧ IsProper { c with index := c.index + n } := by
  have honward : c.Onward { c with index := c.index + n } := ⟨rfl, rfl, Nat.le_add_right _ _⟩
  rw [length_rest] at hn
  exact ⟨honward, hc.of_onward honward (by show c.index + n < c.tokens.size; omega)⟩

/-- Passing over a block keeps the cursor in the tokens, and takes a token if the block is there. -/
lemma IsProper.passBlock (hc : c.IsProper) :
    c.Onward c.passBlock.2 ∧ c.passBlock.2.IsProper ∧
      (c.passBlock.1 = .ok () → c.index < c.passBlock.2.index) := by
  rw [Cursor.passBlock]
  split
  case isTrue hopen =>
    have hne : c.kind ≠ .eof := by
      rw [beq_iff_eq.mp hopen]
      simp
    obtain ⟨h1, h2⟩ := hc.advance.skip (throughClose_lt _ hc.advance.hasEnd_rest)
    have hlt := lt_advance_index hne
    dsimp only
    split
    · exact ⟨c.onward_advance.trans h1, h2, fun _ => lt_of_lt_of_le hlt h1.le⟩
    · exact ⟨c.onward_advance.trans h1, h2, fun h => by simp at h⟩
  case isFalse => exact ⟨.refl c, hc, fun h => by simp at h⟩

/-- Passing over a broken statement keeps the cursor in the tokens. -/
lemma IsProper.resume (hc : c.IsProper) (start : Nat) :
    c.Onward (c.resume start) ∧ (c.resume start).IsProper := by
  rw [Cursor.resume]
  split
  · obtain ⟨h1, h2⟩ := hc.advance.skip (brokenLength_lt _ hc.advance.hasEnd_rest)
    exact ⟨c.onward_advance.trans h1, h2⟩
  · exact hc.skip (brokenLength_lt _ hc.hasEnd_rest)

/-- If the statement did not start at the end, the cursor is after its start. -/
lemma lt_resume_index {start : Nat} (hle : start ≤ c.index) (h : c.index = start → c.kind ≠ .eof) :
    start < (c.resume start).index := by
  rw [Cursor.resume]
  split
  case isTrue heq =>
    have := lt_advance_index (h heq)
    dsimp only
    omega
  case isFalse hne =>
    dsimp only
    omega

end ScriptCheck.Cursor
