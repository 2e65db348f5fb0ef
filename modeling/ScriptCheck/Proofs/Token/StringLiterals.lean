import ScriptCheck.Proofs.Token.Reprint

/-!
A string literal stands for the text it was written for.

Between quotes, a text is written with a backslash before every quote and every backslash in it.
Between double quotes, a line feed, a tab, a carriage return and a dollar sign may be written as a
backslash and a letter, or as they are. `IsWritten` relates a text to all the ways to write it.

Two readers see what is written: one looks for the quote that ends the literal, the other puts the
characters back. They agree on what a backslash belongs to, whatever runs of backslashes and quotes
the text has:

* `IsWritten.quotable`: no quote of the text ends the literal;
* `IsWritten.unescape_eq`: what is put back is the text.

So the literal is one token with the text (`string_literal_decodes`).
-/

namespace ScriptCheck.Lexeme

/-- The characters that may be written with a backslash between double quotes, though they need
not, with what stands after the backslash. -/
def abbreviations : List (Char × Char) :=
  [('\n', 'n'), ('\t', 't'), ('\r', 'r'), ('$', '$')]

/-- The second text is a way to write the first one between quotes of the kind. -/
inductive IsWritten (quote : Char) : (text written : List Char) → Prop
  | nil : IsWritten quote [] []
  | plain {c : Char} {text written : List Char} : c ≠ quote → c ≠ '\\' →
      IsWritten quote text written → IsWritten quote (c :: text) (c :: written)
  | marked {c : Char} {text written : List Char} : c = quote ∨ c = '\\' →
      IsWritten quote text written → IsWritten quote (c :: text) ('\\' :: c :: written)
  | abbreviated {c letter : Char} {text written : List Char} : quote = '"' →
      (c, letter) ∈ abbreviations →
      IsWritten quote text written → IsWritten quote (c :: text) ('\\' :: letter :: written)

/-- The text with a backslash before each quote of the kind and each backslash. -/
def withMarks (quote : Char) (text : List Char) : List Char :=
  text.flatMap fun c => if c = quote ∨ c = '\\' then ['\\', c] else [c]

/-- Every text can be written, and needs no abbreviations. -/
lemma isWritten_withMarks (quote : Char) (text : List Char) :
    IsWritten quote text (withMarks quote text) := by
  induction text with
  | nil => exact .nil
  | cons c text ih =>
      rw [withMarks, List.flatMap_cons]
      split
      case isTrue hmark => exact .marked hmark ih
      case isFalse hplain =>
        obtain ⟨hquote, hbackslash⟩ := not_or.mp hplain
        exact .plain hquote hbackslash ih

lemma escape_mark {quote c : Char} (h : c = quote ∨ c = '\\') : escape quote c = some c := by
  rcases h with rfl | rfl
  · rw [escape]
    split
    case isTrue hbackslash => rw [beq_iff_eq.mp hbackslash]
    case isFalse => rw [if_pos (beq_self_eq_true c)]
  · rfl

lemma escape_abbreviation {c letter : Char} (h : (c, letter) ∈ abbreviations) :
    escape '"' letter = some c := by
  have hall : ∀ pair ∈ abbreviations, escape '"' pair.2 = some pair.1 := by decide
  exact hall _ h

lemma unescape_escape {quote c d : Char} (h : escape quote c = some d) (rest : List Char) :
    unescape quote ('\\' :: c :: rest) = d :: unescape quote rest := by
  rw [unescape, h]

lemma unescape_plain {quote c : Char} (h : c ≠ '\\') (rest : List Char) :
    unescape quote (c :: rest) = c :: unescape quote rest := by
  rw [unescape]
  exact fun _ _ heq => absurd heq h

namespace IsWritten

variable {quote : Char} {text written : List Char}

/-- In a text that is written, quotes and backslashes stand only after a backslash. -/
lemma quotable (h : IsWritten quote text written) : Quotable quote written := by
  induction h with
  | nil => exact .nil
  | plain hquote hbackslash _ ih => exact .plain hquote hbackslash ih
  | marked _ _ ih => exact .escaped _ ih
  | abbreviated _ _ _ ih => exact .escaped _ ih

/-- What is put back is the text that was written. -/
lemma unescape_eq (h : IsWritten quote text written) : unescape quote written = text := by
  induction h with
  | nil => rfl
  | plain _ hbackslash _ ih => rw [unescape_plain hbackslash, ih]
  | marked hmark _ ih => rw [unescape_escape (escape_mark hmark), ih]
  | abbreviated hquote hletter _ ih =>
      subst hquote
      rw [unescape_escape (escape_abbreviation hletter), ih]

/-- A text that is written between quotes is a lexeme of a string with the text. -/
lemma first_eq (h : IsWritten quote text written) (hquote : quote = '"' ∨ quote = '\'')
    (after : List Char) :
    first (quote :: (written ++ [quote]) ++ after) =
      some (.token .text (String.ofList text), (quote :: (written ++ [quote])).length) := by
  rw [first_quoted hquote h.quotable, literalText, List.drop_one, List.tail_cons,
    List.dropLast_concat, h.unescape_eq]

end IsWritten

end ScriptCheck.Lexeme

namespace ScriptCheck

/-- **A string literal stands for the text it was written for.** Every text can be written between
quotes of either kind, and however it is written, the source made of the quotes and what is between
them is scanned as one string token with the text, which spans the source, and the end token. -/
theorem string_literal_decodes (file text : String) (quote : Char)
    (hquote : quote = '"' ∨ quote = '\'') :
    (∃ written, Lexeme.IsWritten quote text.toList written) ∧
      ∀ written, Lexeme.IsWritten quote text.toList written →
        let source := quote :: (written ++ [quote])
        scan file source =
          .ok [⟨.text, text, 0, Text.byteCount source⟩, .ending (Text.byteCount source)] := by
  refine ⟨⟨_, Lexeme.isWritten_withMarks quote text.toList⟩, fun written hwritten => ?_⟩
  intro source
  have hfirst := hwritten.first_eq hquote []
  rw [String.ofList_toList] at hfirst
  have hreads : ReadsAs 0 (source ++ []) [source] _ := .token (List.cons_ne_nil _ _) hfirst .done
  rw [List.append_nil, Nat.zero_add] at hreads
  exact hreads.scanFrom_eq

/-- A quote, a character of two bytes and an abbreviated line feed between double quotes. -/
theorem string_literal_decodes_abbreviated :
    scan "main" "\"\\\"é\\n\"".toList = .ok [⟨.text, "\"é\n", 0, 8⟩, .ending 8] := by
  have hwritten : Lexeme.IsWritten '"' "\"é\n".toList "\\\"é\\n".toList :=
    .marked (.inl rfl) (.plain (by decide) (by decide) (.abbreviated rfl (by decide) .nil))
  exact (string_literal_decodes "main" "\"é\n" '"' (.inl rfl)).2 _ hwritten

-- between single quotes, a backslash stands before a backslash or a quote, and only there
example : Lexeme.withMarks '\'' "\\n'".toList = "\\\\n\\'".toList ∧
    Lexeme.unescape '\'' "\\\\n\\'".toList = "\\n'".toList := by
  decide

end ScriptCheck
