import ScriptCheck.Proofs.Token.Scan

/-!
The tokens of a source and the gaps between them tile the source.

Along a reading no byte is lost: besides the lexemes of the tokens there is only what is passed over
between two of them, and that is made up of fillers (`ReadsAs.gaps`). `tokens_tile_the_source` puts
this together.
-/

namespace ScriptCheck

/-! ### Gaps -/

/-- The text is made up of fillers, and stands before another one. -/
inductive IsGap : (gap after : List Char) → Prop
  | nil {after : List Char} : IsGap [] after
  | cons {piece gap after : List Char} :
      Lexeme.Filler piece (gap ++ after) → IsGap gap after → IsGap (piece ++ gap) after

lemma IsGap.snoc {gap piece after : List Char} (h : IsGap gap (piece ++ after))
    (hpiece : Lexeme.Filler piece after) : IsGap (gap ++ piece) after := by
  generalize hafter : piece ++ after = text at h
  induction h with
  | nil =>
      cases hafter
      have hlast : IsGap (piece ++ []) after := .cons hpiece .nil
      rwa [List.append_nil] at hlast
  | cons hfirst _ ih =>
      cases hafter
      rw [List.append_assoc]
      refine .cons ?_ (ih rfl)
      rwa [List.append_assoc]

/-- What stands between the offset and the first of the tokens is a gap, and so is what stands
between each token and the next. -/
def GapsBetween (source : List Char) : (offset : Nat) → List Token → Prop
  | _, [] => True
  | offset, t :: tokens =>
      (∃ gap after, Text.slice? source offset t.start = some gap ∧
        Text.dropBytes? t.start source = some after ∧ IsGap gap after) ∧
      GapsBetween source t.stop tokens

lemma exists_gap (before gap after : List Char) (h : IsGap gap after) :
    ∃ gap' after', Text.slice? (before ++ (gap ++ after)) (Text.byteCount before)
        (Text.byteCount before + Text.byteCount gap) = some gap' ∧
      Text.dropBytes? (Text.byteCount before + Text.byteCount gap) (before ++ (gap ++ after)) =
        some after' ∧ IsGap gap' after' := by
  refine ⟨gap, after, Text.slice?_append before gap after, ?_, h⟩
  rw [← Text.byteCount_append, ← List.append_assoc, Text.dropBytes?_append]

/-- Nothing but fillers is passed over. The gap so far lies between the last token and the offset
that the reading has come to. -/
lemma ReadsAs.gaps {offset : Nat} {cs : List Char} {lexemes : List (List Char)}
    {tokens : List Token} (h : ReadsAs offset cs lexemes tokens) (before gap : List Char)
    (hgap : IsGap gap cs) (hoffset : Text.byteCount before + Text.byteCount gap = offset) :
    GapsBetween (before ++ (gap ++ cs)) (Text.byteCount before) tokens := by
  induction h generalizing before gap with
  | done =>
      rw [← hoffset]
      exact ⟨exists_gap before gap [] hgap, trivial⟩
  | @skip offset lexeme rest _ _ hne hfirst _ ih =>
      have hfiller : Lexeme.Filler lexeme rest := Lexeme.fits_of_first hfirst
      have hnext : Text.byteCount before + Text.byteCount (gap ++ lexeme) =
          offset + Text.byteCount lexeme := by
        rw [Text.byteCount_append, ← Nat.add_assoc, hoffset]
      simpa only [List.append_assoc] using ih before (gap ++ lexeme) (hgap.snoc hfiller) hnext
  | @token offset lexeme rest _ _ _ _ hne _ _ ih =>
      refine ⟨?_, ?_⟩
      · rw [← hoffset]
        exact exists_gap before gap (lexeme ++ rest) hgap
      · have hstop : Text.byteCount (before ++ (gap ++ lexeme)) = offset + Text.byteCount lexeme := by
          simp only [Text.byteCount_append]
          omega
        have hlater := ih (before ++ (gap ++ lexeme)) [] .nil hstop
        rw [hstop] at hlater
        simpa only [List.append_assoc, List.nil_append] using hlater

/-- **The tokens of a source tile it.** The last token is the end token, at the end of the source, and
no other one is an end token. The others have lexemes that follow one another; the lexeme of each is
the slice of the source between its offsets, and spells it. What stands before, between and after
them is made up of blanks, file marks and comments. -/
theorem tokens_tile_the_source (source file : String) (tokens : List Token)
    (h : scan file source.toList = .ok tokens) :
    ∃ words, tokens = words ++ [.ending (Text.byteCount source.toList)] ∧
      (∀ t ∈ words, t.kind ≠ .eof ∧ t.start < t.stop ∧
        ∃ lexeme, Text.slice? source.toList t.start t.stop = some lexeme ∧
          Lexeme.Spells t.kind t.value lexeme) ∧
      tokens.Pairwise (·.stop ≤ ·.start) ∧
      GapsBetween source.toList 0 tokens := by
  obtain ⟨lexemes, hreads⟩ := scanFrom_eq_ok_iff.mp h
  obtain ⟨words, hwords, htiles, -⟩ := hreads.slices Text.byteCount_nil
  refine ⟨words, hwords, fun t ht => ?_, hreads.ordered.1, hreads.gaps [] [] .nil rfl⟩
  exact ⟨(htiles t ht).kind_ne, (htiles t ht).start_lt, (htiles t ht).spells⟩

/-- A source with file marks, a quoted quote and comments of both kinds, one with a character of two
bytes. -/
def markedSource : String := "<?php $x /* é */ = 'it\\'s'; # done\n?>"

/-- The string is the slice from its first quote through its last, and stands for the text inside. -/
theorem tokens_tile_the_source_markedSource :
    ∃ tokens, scan "main" markedSource.toList = .ok tokens ∧ GapsBetween markedSource.toList 0 tokens ∧
      ∃ t ∈ tokens, t.kind = .text ∧ t.value = "it's" ∧
        Text.slice? markedSource.toList t.start t.stop = some "'it\\'s'".toList := by
  have hscan : scan "main" markedSource.toList = .ok
      [⟨.var, "x", 6, 8⟩, ⟨.assign, "=", 18, 19⟩, ⟨.text, "it's", 20, 27⟩, ⟨.semicolon, ";", 27, 28⟩,
        .ending 38] := by decide +kernel
  obtain ⟨words, -, hwords, -, hgaps⟩ := tokens_tile_the_source markedSource "main" _ hscan
  exact ⟨_, hscan, hgaps, ⟨.text, "it's", 20, 27⟩, by simp, rfl, rfl, by decide +kernel⟩

end ScriptCheck
