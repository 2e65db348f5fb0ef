import ScriptCheck.Proofs.Descriptor.Transparency
import ScriptCheck.Proofs.Statement.Tree
import ScriptCheck.Proofs.Token.Reprint

/-!
The symbols that a text reads as, piece by piece.

`ReadsSymbols` says which symbols the tokens of a text have, the one of the end token included,
wherever the text stands. There is a rule for each piece that may stand before a text that is already
read: names (`ReadsSymbols.name`), single operators (`ReadsSymbols.token`) and blanks
(`ReadsSymbols.blanks`).
-/

namespace ScriptCheck

namespace Lexeme

/-! ### Characters of names -/

lemma isNameStart_descriptor {c : Char} (h : isNameStart c = true) :
    Descriptor.isNameStart c = true :=
  Bool.or_eq_true_iff.mpr (.inl h)

lemma isNameRest_descriptor {c : Char} (h : isNameRest c = true) :
    Descriptor.isNameRest c = true := by
  rcases Bool.or_eq_true_iff.mp h with h | h
  · exact Descriptor.isNameRest_of_isNameStart (isNameStart_descriptor h)
  · exact Bool.or_eq_true_iff.mpr (.inr h)

lemma NameTail.isNameRest {tail : List Char} (h : NameTail tail) :
    ∀ d ∈ tail, Descriptor.isNameRest d = true := by
  induction h with
  | nil => exact List.forall_mem_nil _
  | rest hc _ ih => exact List.forall_mem_cons.mpr ⟨isNameRest_descriptor hc, ih⟩
  | separator hc _ ih =>
      refine List.forall_mem_cons.mpr ⟨by decide, List.forall_mem_cons.mpr ⟨?_, ih⟩⟩
      exact Descriptor.isNameRest_of_isNameStart (isNameStart_descriptor hc)

/-- The characters of a name of a source may stand in a name of a descriptor. -/
lemma IsName.isNameRest {name : List Char} (h : IsName name) :
    ∀ c ∈ name, Descriptor.isNameRest c = true := by
  cases h with
  | plain hc htail =>
      exact List.forall_mem_cons.mpr
        ⟨isNameRest_descriptor (Bool.or_eq_true_iff.mpr (.inl hc)), htail.isNameRest⟩
  | separated hc htail => exact (NameTail.separator hc htail).isNameRest

/-- A name without separators. -/
lemma isName_of_forall {c : Char} {tail : List Char} (hc : isNameStart c = true)
    (htail : ∀ d ∈ tail, isNameRest d = true) : IsName (c :: tail) := by
  refine .plain hc ?_
  induction tail with
  | nil => exact .nil
  | cons d tail ih =>
      obtain ⟨hd, htail⟩ := List.forall_mem_cons.mp htail
      exact .rest hd (ih htail)

/-! ### Names as lexemes -/

/-- The rules before that for names apply to none of these characters. -/
lemma length_eq_none_of_first {c : Char} (hmark : ∀ d ∈ ['<', '?', '/', '.', '#', '$'], d ≠ c)
    (hblank : Text.isBlank c = false) {cs : List Char} :
    ∀ rule ∈ rules.take 8, rule.length (c :: cs) = none := by
  simp only [List.forall_mem_cons] at hmark
  obtain ⟨hless, hquestion, hslash, hdot, hhash, hdollar, -⟩ := hmark
  have hliteral : ∀ (spelling : String) (d : Char) (more : List Char), spelling.toList = d :: more →
      d ≠ c → literal spelling (c :: cs) = none := by
    intro spelling d more hspelling hne
    rw [literal, hspelling, List.isPrefixOf_cons_cons, beq_false_of_ne hne, Bool.false_and,
      if_neg Bool.false_ne_true]
  have hblanks : blanks (c :: cs) = none := by
    rw [blanks, List.takeWhile_cons_of_neg (by simp [hblank])]
    rfl
  have hblock : blockComment (c :: cs) = none := by
    rw [blockComment.eq_def]
    split
    case h_1 heq => exact absurd (List.cons.inj heq).1.symm hslash
    case h_2 => rfl
  have hline : lineComment (c :: cs) = none := by
    rw [lineComment.eq_def]
    split
    case h_1 heq => exact absurd (List.cons.inj heq).1.symm hslash
    case h_2 heq => exact absurd (List.cons.inj heq).1.symm hhash
    case h_3 => rfl
  have hvar : dollarName (c :: cs) = none := by
    rw [dollarName.eq_def]
    split
    case h_1 heq => exact absurd (List.cons.inj heq).1.symm hdollar
    case h_2 => rfl
  simp only [rules, List.cons_append, List.take_succ_cons, List.take_zero, List.forall_mem_cons]
  exact ⟨hliteral "<?php" _ _ rfl hless, hliteral "?>" _ _ rfl hquestion, hblanks,
    hliteral "/*." _ _ rfl hslash, hliteral ".*/" _ _ rfl hdot, hblock, hline, hvar,
    List.forall_mem_nil _⟩

/-- A name is read to its end. -/
lemma first_name {lexeme after : List Char} (h : IsName lexeme) (hafter : NameEnds after) :
    first (lexeme ++ after) = some
      (.token (nameKind (String.ofList lexeme)) (String.ofList lexeme), lexeme.length) := by
  have hrules : rules = rules.take 8 ++
      ⟨name, fun cs => .token (nameKind (String.ofList cs)) (String.ofList cs)⟩ ::
        rules.drop 9 := rfl
  have hearlier : ∀ rule ∈ rules.take 8, rule.length (lexeme ++ after) = none := by
    obtain ⟨c, rest, rfl⟩ : ∃ c rest, lexeme = c :: rest := by cases h <;> exact ⟨_, _, rfl⟩
    have hc := h.isNameRest c List.mem_cons_self
    exact length_eq_none_of_first (forall_ne_of_kind (by decide) hc)
      (Descriptor.isBlank_of_isNameRest hc)
  rw [first_eq_of_split hrules hearlier (name_append hafter h), List.take_left]

end Lexeme

/-! ### Symbols of a text -/

/-- The text reads as tokens with these symbols, wherever it stands. -/
def ReadsSymbols (cs : List Char) (xs : List Symbol) : Prop :=
  ∀ offset, ∃ lexemes tokens, ReadsAs offset cs lexemes tokens ∧ tokens.map Token.symbol = xs

/-- The symbol of the end token. -/
def Symbol.ending : Symbol := ⟨.eof, "EOF"⟩

/-- The symbol of a word: a reserved word or a plain name. -/
def Symbol.word (name : List Char) : Symbol :=
  ⟨Lexeme.nameKind (String.ofList name), String.ofList name⟩

namespace ReadsSymbols

variable {rest : List Char} {xs : List Symbol}

lemma nil : ReadsSymbols [] [.ending] :=
  fun _ => ⟨[], _, .done, rfl⟩

lemma token {lexeme : List Char} {kind : Kind} {value : String} (hne : lexeme ≠ [])
    (hfirst : Lexeme.first (lexeme ++ rest) = some (.token kind value, lexeme.length))
    (h : ReadsSymbols rest xs) : ReadsSymbols (lexeme ++ rest) (⟨kind, value⟩ :: xs) := by
  intro offset
  obtain ⟨lexemes, tokens, hreads, htokens⟩ := h (offset + Text.byteCount lexeme)
  refine ⟨_, _, .token hne hfirst hreads, ?_⟩
  rw [List.map_cons, htokens]
  rfl

lemma name {lexeme : List Char} (hname : Lexeme.IsName lexeme) (hends : Lexeme.NameEnds rest)
    (h : ReadsSymbols rest xs) : ReadsSymbols (lexeme ++ rest) (.word lexeme :: xs) := by
  have hne : lexeme ≠ [] := by cases hname <;> exact List.cons_ne_nil _ _
  exact h.token hne (Lexeme.first_name hname hends)

/-- Blanks are passed over together. -/
lemma blanks {gap : List Char} (hgap : ∀ c ∈ gap, Text.isBlank c = true)
    (hrest : ∀ c ∈ rest.head?, Text.isBlank c = false) (h : ReadsSymbols rest xs) :
    ReadsSymbols (gap ++ rest) xs := by
  cases gap with
  | nil => exact h
  | cons c gap =>
      obtain ⟨hc, hgap⟩ := List.forall_mem_cons.mp hgap
      have htake : ((gap ++ rest).takeWhile Text.isBlank).length + 1 = (c :: gap).length := by
        rw [List.takeWhile_append_of_pos hgap]
        cases rest with
        | nil => simp
        | cons d rest => simp [hrest d rfl]
      have hfirst := Lexeme.first_of_isBlank hc (gap ++ rest)
      rw [htake] at hfirst
      intro offset
      obtain ⟨lexemes, tokens, hreads, htokens⟩ := h (offset + Text.byteCount (c :: gap))
      exact ⟨lexemes, tokens, .skip (List.cons_ne_nil c gap) hfirst hreads, htokens⟩

/-- A text that reads as symbols before the end is scanned as tokens with these symbols. -/
lemma exists_scan (h : ReadsSymbols rest (xs ++ [.ending])) (file : String) :
    ∃ words, scan file rest = .ok (words ++ [.ending (Text.byteCount rest)]) ∧
      words.map Token.symbol = xs := by
  obtain ⟨lexemes, tokens, hreads, htokens⟩ := h 0
  obtain ⟨words, rfl, -⟩ := hreads.slices Text.byteCount_nil
  refine ⟨words, hreads.scanFrom_eq, ?_⟩
  rw [List.map_append] at htokens
  exact List.append_cancel_right htokens

end ReadsSymbols

end ScriptCheck
