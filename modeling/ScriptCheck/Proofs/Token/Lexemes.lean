import Mathlib.Tactic
import ScriptCheck.Token.Lexeme

/-!
What the lexemes of a source look like.

A lexeme that is passed over is a `Filler`: a run of blanks, one of the file marks, or a comment. The
lexeme of a token spells the token (`Spells`): it is the token's text, except that a variable has a
dollar sign before it and a string stands between quotes and is escaped. Each recogniser has a lemma
that gives the form of what it recognises, and from these `lexeme_of_first` says so of the lexeme at
the start of a text, whichever rule finds it.
-/

namespace ScriptCheck.Lexeme

/-! ### The forms of lexemes -/

/-- A lexeme that is passed over, and the text after it. A line comment goes on to the end of its
line, and a block comment ends at the first `*/` in it. -/
inductive Filler : (piece after : List Char) → Prop
  | blanks {piece after : List Char} :
      piece ≠ [] → (∀ c ∈ piece, Text.isBlank c = true) → Filler piece after
  | mark {piece after : List Char} : piece ∈ ["<?php".toList, "?>".toList] → Filler piece after
  | lineComment {opening body after : List Char} : opening ∈ ["//".toList, "#".toList] →
      '\n' ∉ body → (∀ c ∈ after.head?, c = '\n') → Filler (opening ++ body) after
  | blockComment {body after : List Char} : ¬ "*/".toList <:+: body →
      Filler ("/*".toList ++ (body ++ "*/".toList)) after

/-- What a name may go on with: characters of names, and separators with a name after them. -/
inductive NameTail : List Char → Prop
  | nil : NameTail []
  | rest {c : Char} {cs : List Char} : isNameRest c = true → NameTail cs → NameTail (c :: cs)
  | separator {c : Char} {cs : List Char} :
      isNameStart c = true → NameTail cs → NameTail ('\\' :: c :: cs)

/-- A name, with or without a separator in front. -/
inductive IsName : List Char → Prop
  | plain {c : Char} {tail : List Char} : isNameStart c = true → NameTail tail → IsName (c :: tail)
  | separated {c : Char} {tail : List Char} :
      isNameStart c = true → NameTail tail → IsName ('\\' :: c :: tail)

/-- A variable: a dollar sign and a name without separators. -/
inductive IsVariable : List Char → Prop
  | mk {c : Char} {tail : List Char} : isNameStart c = true → (∀ d ∈ tail, isNameRest d = true) →
      IsVariable ('$' :: c :: tail)

/-- One or more digits. -/
structure IsDigits (cs : List Char) : Prop where
  nonempty : cs ≠ []
  digits : ∀ c ∈ cs, isDigit c = true

/-- A number, with or without a fraction. -/
inductive IsNumber : List Char → Prop
  | whole {whole : List Char} : IsDigits whole → IsNumber whole
  | fraction {whole fraction : List Char} :
      IsDigits whole → IsDigits fraction → IsNumber (whole ++ '.' :: fraction)

/-- What may stand between two quotes: a quote or a backslash only after a backslash. -/
inductive Quotable (quote : Char) : List Char → Prop
  | nil : Quotable quote []
  | plain {c : Char} {cs : List Char} :
      c ≠ quote → c ≠ '\\' → Quotable quote cs → Quotable quote (c :: cs)
  | escaped (c : Char) {cs : List Char} : Quotable quote cs → Quotable quote ('\\' :: c :: cs)

/-- The lexeme reads as a token of the kind and text. -/
def Spells (kind : Kind) (value : String) (lexeme : List Char) : Prop :=
  match kind with
  | .var => lexeme = '$' :: value.toList
  | .text => ∃ quote body, (quote = '"' ∨ quote = '\'') ∧ lexeme = quote :: (body ++ [quote]) ∧
      Quotable quote body ∧ value = String.ofList (unescape quote body)
  | _ => lexeme = value.toList

/-- The lexeme, standing before the rest of a text, is one of those that have the reading. -/
def Reading.Fits : Reading → (lexeme rest : List Char) → Prop
  | .nothing, lexeme, rest => Filler lexeme rest
  | .token kind value, lexeme, _ => Spells kind value lexeme

lemma Filler.ne_nil {piece after : List Char} (h : Filler piece after) : piece ≠ [] := by
  cases h with
  | blanks hne _ => exact hne
  | mark hmem =>
      rintro rfl
      simp at hmem
  | lineComment hopening _ _ =>
      intro hnil
      rw [(List.append_eq_nil_iff.mp hnil).1] at hopening
      simp at hopening
  | blockComment _ => simp

/-! ### What the recognisers recognise -/

variable {cs : List Char} {n : Nat}

lemma eq_append_of_literal {spelling : String} (h : literal spelling cs = some n) :
    ∃ rest, cs = spelling.toList ++ rest ∧ spelling.toList.length = n := by
  rw [literal] at h
  split at h
  case isTrue hstarts =>
    obtain ⟨rest, hrest⟩ := List.isPrefixOf_iff_prefix.mp hstarts
    exact ⟨rest, hrest.symm, Option.some.inj h⟩
  case isFalse => cases h

lemma eq_append_of_blanks (h : blanks cs = some n) :
    ∃ piece rest, cs = piece ++ rest ∧ piece.length = n ∧ Filler piece rest := by
  rw [blanks] at h
  split at h
  case h_1 => cases h
  case h_2 hne =>
    refine ⟨cs.takeWhile Text.isBlank, cs.dropWhile Text.isBlank,
      List.takeWhile_append_dropWhile.symm, Option.some.inj h, .blanks ?_ ?_⟩
    · intro hnil
      exact hne (by rw [hnil]; rfl)
    · exact List.all_eq_true.mp List.all_takeWhile

/-- The end of a block comment is the first `*/`. -/
lemma eq_append_of_throughClose (h : throughClose cs = some n) :
    ∃ body rest, cs = body ++ ('*' :: '/' :: rest) ∧ body.length + 2 = n ∧
      ¬ ['*', '/'] <:+: body := by
  induction cs using throughClose.induct generalizing n with
  | case1 rest =>
      rw [throughClose] at h
      exact ⟨[], rest, rfl, Option.some.inj h, by simp⟩
  | case2 c rest hopen ih =>
      rw [throughClose] at h
      · obtain ⟨m, hm, rfl⟩ := Option.map_eq_some_iff.mp h
        obtain ⟨body, after, rfl, rfl, hfree⟩ := ih hm
        refine ⟨c :: body, after, rfl, by rw [List.length_cons, Nat.add_right_comm], ?_⟩
        rw [List.infix_cons_iff]
        rintro (hstarts | hinfix)
        · obtain ⟨rfl, hslash⟩ := List.cons_prefix_cons.mp hstarts
          obtain ⟨body, rfl⟩ := hslash
          exact hopen _ rfl rfl
        · exact hfree hinfix
      · exact hopen
  | case3 => cases h

lemma eq_append_of_blockComment (h : blockComment cs = some n) :
    ∃ piece rest, cs = piece ++ rest ∧ piece.length = n ∧ Filler piece rest := by
  rw [blockComment.eq_def] at h
  split at h
  case h_1 inside =>
    obtain ⟨m, hm, rfl⟩ := Option.map_eq_some_iff.mp h
    obtain ⟨body, rest, rfl, rfl, hfree⟩ := eq_append_of_throughClose hm
    refine ⟨"/*".toList ++ (body ++ "*/".toList), rest, ?_, ?_, .blockComment hfree⟩
    · simp
    · simp
  case h_2 => cases h

/-- What follows a run of characters of a kind does not start with one of them. -/
lemma head?_dropWhile_ne {p : Char → Bool} {c : Char} (h : c ∈ (cs.dropWhile p).head?) :
    p c = false := by
  have hnot := List.head?_dropWhile_not p cs
  rw [Option.mem_def.mp h] at hnot
  exact hnot

lemma eq_append_of_lineComment (h : lineComment cs = some n) :
    ∃ piece rest, cs = piece ++ rest ∧ piece.length = n ∧ Filler piece rest := by
  -- the body goes on to the next line feed
  have hfiller : ∀ (opening inside : List Char), opening ∈ ["//".toList, "#".toList] →
      Filler (opening ++ inside.takeWhile (· != '\n')) (inside.dropWhile (· != '\n')) := by
    intro opening inside hopening
    refine .lineComment hopening (fun hmem => ?_) fun c hc => ?_
    · have hne := List.all_eq_true.mp List.all_takeWhile _ hmem
      simp at hne
    · simpa using head?_dropWhile_ne hc
  rw [lineComment.eq_def] at h
  split at h
  case h_1 inside =>
    refine ⟨_, _, ?_, ?_, hfiller "//".toList inside (by simp)⟩
    · rw [List.append_assoc, List.takeWhile_append_dropWhile]
      rfl
    · rw [← Option.some.inj h, List.length_append]
      rfl
  case h_2 inside =>
    refine ⟨_, _, ?_, ?_, hfiller "#".toList inside (by simp)⟩
    · rw [List.append_assoc, List.takeWhile_append_dropWhile]
      rfl
    · rw [← Option.some.inj h, List.length_append]
      rfl
  case h_3 => cases h

lemma eq_append_of_dollarName (h : dollarName cs = some n) :
    ∃ lexeme rest, cs = lexeme ++ rest ∧ lexeme.length = n ∧ IsVariable lexeme := by
  rw [dollarName.eq_def] at h
  split at h
  case h_1 text =>
    obtain ⟨m, hm, rfl⟩ := Option.map_eq_some_iff.mp h
    rw [simpleName.eq_def] at hm
    split at hm
    case h_1 c body =>
      split at hm
      case isTrue hstart =>
        refine ⟨'$' :: c :: body.takeWhile isNameRest, body.dropWhile isNameRest, ?_, ?_,
          .mk hstart (List.all_eq_true.mp List.all_takeWhile)⟩
        · rw [List.cons_append, List.cons_append, List.takeWhile_append_dropWhile]
        · rw [← Option.some.inj hm, List.length_cons, List.length_cons, Nat.add_comm 1]
      case isFalse => cases hm
    case h_2 => cases hm
  case h_2 => cases h

lemma eq_append_of_nameTail (cs : List Char) :
    ∃ tail rest, cs = tail ++ rest ∧ tail.length = nameTail cs ∧ NameTail tail := by
  induction cs using nameTail.induct with
  | case1 c text hstart ih =>
      obtain ⟨tail, rest, rfl, hlength, htail⟩ := ih
      refine ⟨'\\' :: c :: tail, rest, rfl, ?_, .separator hstart htail⟩
      rw [nameTail, if_pos hstart, ← hlength, List.length_cons, List.length_cons, Nat.add_comm 2]
  | case2 c text hstart =>
      refine ⟨[], '\\' :: c :: text, rfl, ?_, .nil⟩
      rw [nameTail, if_neg hstart, List.length_nil]
  | case3 c text hsep hrest ih =>
      obtain ⟨tail, rest, rfl, hlength, htail⟩ := ih
      refine ⟨c :: tail, rest, rfl, ?_, .rest hrest htail⟩
      rw [nameTail, if_pos hrest, ← hlength, List.length_cons, Nat.add_comm 1]
      exact hsep
  | case4 c text hsep hrest =>
      refine ⟨[], c :: text, rfl, ?_, .nil⟩
      rw [nameTail, if_neg hrest, List.length_nil]
      exact hsep
  | case5 => exact ⟨[], [], rfl, rfl, .nil⟩

lemma eq_append_of_name (h : name cs = some n) :
    ∃ lexeme rest, cs = lexeme ++ rest ∧ lexeme.length = n ∧ IsName lexeme := by
  rw [name.eq_def] at h
  split at h
  case h_1 c text =>
    split at h
    case isTrue hstart =>
      obtain ⟨tail, rest, htext, hlength, htail⟩ := eq_append_of_nameTail text
      refine ⟨'\\' :: c :: tail, rest, by rw [htext]; rfl, ?_, .separated hstart htail⟩
      rw [← Option.some.inj h, ← hlength, List.length_cons, List.length_cons, Nat.add_comm 2]
    case isFalse => cases h
  case h_2 c text _ =>
    split at h
    case isTrue hstart =>
      obtain ⟨tail, rest, htext, hlength, htail⟩ := eq_append_of_nameTail text
      refine ⟨c :: tail, rest, by rw [htext]; rfl, ?_, .plain hstart htail⟩
      rw [← Option.some.inj h, ← hlength, List.length_cons, Nat.add_comm 1]
    case isFalse => cases h
  case h_3 => cases h

lemma drop_length_takeWhile (p : Char → Bool) (cs : List Char) :
    cs.drop (cs.takeWhile p).length = cs.dropWhile p := by
  induction cs with
  | nil => rfl
  | cons c cs ih => by_cases h : p c = true <;> simp [h, ih]

lemma isDigits_takeWhile (h : (cs.takeWhile isDigit).length ≠ 0) :
    IsDigits (cs.takeWhile isDigit) where
  nonempty := fun hnil => h (by rw [hnil]; rfl)
  digits := List.all_eq_true.mp List.all_takeWhile

lemma eq_append_of_number (h : number cs = some n) :
    ∃ lexeme rest, cs = lexeme ++ rest ∧ lexeme.length = n ∧ IsNumber lexeme := by
  rw [number] at h
  split at h
  case h_1 => cases h
  case h_2 hne =>
    have hwhole := isDigits_takeWhile hne
    rw [drop_length_takeWhile] at h
    split at h
    case h_1 text hpoint =>
      split at h
      case h_1 =>
        exact ⟨_, _, List.takeWhile_append_dropWhile.symm, Option.some.inj h, .whole hwhole⟩
      case h_2 hfraction =>
        refine ⟨cs.takeWhile isDigit ++ '.' :: text.takeWhile isDigit, text.dropWhile isDigit, ?_, ?_,
          .fraction hwhole (isDigits_takeWhile hfraction)⟩
        · rw [List.append_assoc, List.cons_append, List.takeWhile_append_dropWhile, ← hpoint,
            List.takeWhile_append_dropWhile]
        · rw [← Option.some.inj h, List.length_append, List.length_cons]
          omega
    case h_2 =>
      exact ⟨_, _, List.takeWhile_append_dropWhile.symm, Option.some.inj h, .whole hwhole⟩

/-- The end of a string is the first quote that no backslash precedes. -/
lemma eq_append_of_throughQuote {quote : Char} (h : throughQuote quote cs = some n) :
    ∃ body rest, cs = body ++ quote :: rest ∧ body.length + 1 = n ∧ Quotable quote body := by
  induction cs using throughQuote.induct quote generalizing n with
  | case1 => cases h
  | case2 => cases h
  | case3 c text ih =>
      rw [throughQuote] at h
      obtain ⟨m, hm, rfl⟩ := Option.map_eq_some_iff.mp h
      obtain ⟨body, rest, rfl, rfl, hbody⟩ := ih hm
      exact ⟨'\\' :: c :: body, rest, rfl, rfl, .escaped c hbody⟩
  | case4 c text hescape hquote =>
      rw [throughQuote, if_pos hquote] at h
      · obtain rfl := beq_iff_eq.mp hquote
        exact ⟨[], text, rfl, Option.some.inj h, .nil⟩
      · exact hescape
  | case5 c text hescape hquote ih =>
      rw [throughQuote, if_neg hquote] at h
      · obtain ⟨m, hm, rfl⟩ := Option.map_eq_some_iff.mp h
        obtain ⟨body, rest, rfl, rfl, hbody⟩ := ih hm
        exact ⟨c :: body, rest, rfl, rfl, .plain (by simpa using hquote) hescape hbody⟩
      · exact hescape

lemma eq_append_of_quoted {quote : Char} (h : quoted quote cs = some n) :
    ∃ body rest, cs = quote :: (body ++ [quote]) ++ rest ∧ (quote :: (body ++ [quote])).length = n ∧
      Quotable quote body := by
  rw [quoted.eq_def] at h
  split at h
  case h_1 c text =>
    split at h
    case isTrue hquote =>
      obtain ⟨m, hm, rfl⟩ := Option.map_eq_some_iff.mp h
      obtain ⟨body, rest, rfl, rfl, hbody⟩ := eq_append_of_throughQuote hm
      obtain rfl := beq_iff_eq.mp hquote
      exact ⟨body, rest, by simp, by simp, hbody⟩
    case isFalse => cases h
  case h_2 => cases h

/-! ### What the rules read -/

lemma spells_of_ne {kind : Kind} (hvar : kind ≠ .var) (htext : kind ≠ .text) (value : String) :
    Spells kind value value.toList := by
  rw [Spells.eq_def]
  split
  · exact absurd rfl hvar
  · exact absurd rfl htext
  · rfl

/-- A name is read as a plain name or a reserved word. -/
lemma nameKind_mem (name : String) :
    nameKind name ∈ Kind.name :: Kind.reservedWords.map Prod.snd := by
  rw [nameKind]
  cases hfound : Kind.reservedWords.lookup (Text.lowerAscii name) with
  | none => simp
  | some kind =>
      obtain ⟨before, after, heq, -⟩ := List.lookup_eq_some_iff.mp hfound
      refine List.mem_cons_of_mem _ (List.mem_map.mpr ⟨(Text.lowerAscii name, kind), ?_, rfl⟩)
      simp [heq]

lemma spells_name (lexeme : List Char) :
    Spells (nameKind (String.ofList lexeme)) (String.ofList lexeme) lexeme := by
  have hkinds : ∀ kind ∈ Kind.name :: Kind.reservedWords.map Prod.snd,
      kind ≠ .var ∧ kind ≠ .text := by decide
  obtain ⟨hvar, htext⟩ := hkinds _ (nameKind_mem (String.ofList lexeme))
  simpa using spells_of_ne hvar htext (String.ofList lexeme)

lemma spells_quoted {quote : Char} {body : List Char} (hquote : quote = '"' ∨ quote = '\'')
    (hbody : Quotable quote body) :
    Spells .text (literalText quote (quote :: (body ++ [quote]))) (quote :: (body ++ [quote])) := by
  refine ⟨quote, body, hquote, rfl, hbody, ?_⟩
  rw [literalText, List.drop_one, List.tail_cons, List.dropLast_concat]

/-- The lexemes that a rule recognises have a character and fit its reading. -/
def Rule.IsFaithful (rule : Rule) : Prop :=
  ∀ cs n, rule.length cs = some n → ∃ lexeme rest, cs = lexeme ++ rest ∧ lexeme.length = n ∧
    lexeme ≠ [] ∧ (rule.reading lexeme).Fits lexeme rest

lemma isFaithful_fixed {spelling : String} {kind : Kind} (hne : spelling.toList ≠ [])
    (hvar : kind ≠ .var) (htext : kind ≠ .text) : (Rule.fixed spelling kind).IsFaithful := by
  intro cs n h
  obtain ⟨rest, rfl, hlength⟩ := eq_append_of_literal h
  exact ⟨spelling.toList, rest, rfl, hlength, hne, spells_of_ne hvar htext spelling⟩

lemma isFaithful_skip {length : List Char → Option Nat}
    (h : ∀ {cs : List Char} {n : Nat}, length cs = some n →
      ∃ piece rest, cs = piece ++ rest ∧ piece.length = n ∧ Filler piece rest) :
    (Rule.skip length).IsFaithful := by
  intro cs n hlength
  obtain ⟨piece, rest, hcs, hn, hfiller⟩ := h hlength
  exact ⟨piece, rest, hcs, hn, hfiller.ne_nil, hfiller⟩

lemma isFaithful_mark {spelling : String} (h : spelling.toList ∈ ["<?php".toList, "?>".toList]) :
    (Rule.skip (literal spelling)).IsFaithful := by
  refine isFaithful_skip fun hlength => ?_
  obtain ⟨rest, hcs, hn⟩ := eq_append_of_literal hlength
  exact ⟨spelling.toList, rest, hcs, hn, .mark h⟩

lemma isFaithful_quoted {quote : Char} (hquote : quote = '"' ∨ quote = '\'') :
    Rule.IsFaithful ⟨quoted quote, fun cs => .token .text (literalText quote cs)⟩ := by
  intro cs n h
  obtain ⟨body, rest, hcs, hn, hbody⟩ := eq_append_of_quoted h
  exact ⟨_, rest, hcs, hn, by simp, spells_quoted hquote hbody⟩

lemma isFaithful_dollarName :
    Rule.IsFaithful ⟨dollarName, fun cs => .token .var (String.ofList (cs.drop 1))⟩ := by
  intro cs n h
  obtain ⟨lexeme, rest, hcs, hn, hlexeme⟩ := eq_append_of_dollarName h
  cases hlexeme with
  | @mk c tail _ _ =>
      refine ⟨_, rest, hcs, hn, by simp, ?_⟩
      show _ = '$' :: (String.ofList (c :: tail)).toList
      rw [String.toList_ofList]

lemma isFaithful_name :
    Rule.IsFaithful
      ⟨name, fun cs => .token (nameKind (String.ofList cs)) (String.ofList cs)⟩ := by
  intro cs n h
  obtain ⟨lexeme, rest, hcs, hn, hlexeme⟩ := eq_append_of_name h
  refine ⟨lexeme, rest, hcs, hn, ?_, spells_name lexeme⟩
  cases hlexeme <;> simp

lemma isFaithful_number : Rule.IsFaithful ⟨number, fun cs => .token .number (String.ofList cs)⟩ := by
  intro cs n h
  obtain ⟨lexeme, rest, hcs, hn, hlexeme⟩ := eq_append_of_number h
  refine ⟨lexeme, rest, hcs, hn, ?_, String.toList_ofList.symm⟩
  cases hlexeme with
  | whole hwhole => exact hwhole.nonempty
  | fraction => simp

lemma isFaithful_of_mem {rule : Rule} (h : rule ∈ rules) : rule.IsFaithful := by
  have hoperators : ∀ op ∈ Kind.operators, op.1.toList ≠ [] ∧ op.2 ≠ .var ∧ op.2 ≠ .text := by decide
  have hall : ∀ rule ∈ rules, rule.IsFaithful := by
    rw [rules, List.forall_mem_append, List.forall_mem_map]
    refine ⟨?_, fun op hop => ?_⟩
    · simp only [List.forall_mem_cons]
      exact ⟨isFaithful_mark (by simp), isFaithful_mark (by simp), isFaithful_skip eq_append_of_blanks,
        isFaithful_fixed (by simp) (by simp) (by simp), isFaithful_fixed (by simp) (by simp) (by simp),
        isFaithful_skip eq_append_of_blockComment, isFaithful_skip eq_append_of_lineComment,
        isFaithful_dollarName, isFaithful_name, isFaithful_number, isFaithful_quoted (.inl rfl),
        isFaithful_quoted (.inr rfl), List.forall_mem_nil _⟩
    · obtain ⟨hne, hvar, htext⟩ := hoperators op hop
      exact isFaithful_fixed hne hvar htext
  exact hall rule h

/-- **The lexeme at the start of a text** has a character, and is what its reading says. -/
theorem lexeme_of_first {cs : List Char} {reading : Reading} {n : Nat}
    (h : first cs = some (reading, n)) :
    ∃ lexeme rest, cs = lexeme ++ rest ∧ lexeme.length = n ∧ lexeme ≠ [] ∧
      reading.Fits lexeme rest := by
  obtain ⟨rule, hrule, hreading⟩ := List.exists_of_findSome?_eq_some h
  obtain ⟨m, hm, heq⟩ := Option.map_eq_some_iff.mp hreading
  obtain ⟨rfl, rfl⟩ := Prod.mk.inj heq
  obtain ⟨lexeme, rest, rfl, rfl, hne, hfits⟩ := isFaithful_of_mem hrule cs m hm
  refine ⟨lexeme, rest, rfl, rfl, hne, ?_⟩
  rwa [List.take_left]

lemma fits_of_first {lexeme rest : List Char} {reading : Reading}
    (h : first (lexeme ++ rest) = some (reading, lexeme.length)) : reading.Fits lexeme rest := by
  obtain ⟨_, _, heq, hlength, -, hfits⟩ := lexeme_of_first h
  obtain ⟨rfl, rfl⟩ := List.append_inj heq hlength.symm
  exact hfits

end ScriptCheck.Lexeme
