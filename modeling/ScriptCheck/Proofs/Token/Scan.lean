import ScriptCheck.Proofs.Text.Bytes
import ScriptCheck.Proofs.Token.Lexemes
import ScriptCheck.Proofs.Token.Progress

/-!
What a scan reads.

`ReadsAs` follows a scan lexeme by lexeme; a scan gives some tokens exactly if the text reads as them
(`scanFrom_eq_ok_iff`). Along a reading no byte is lost: the lexeme of a token is the slice of the
source between its offsets (`ReadsAs.slices`), and lexemes follow one another (`ReadsAs.ordered`).

No rule reads a lexeme as an end token (`kind_ne_eof_of_first`), so the one that stands at the end is
the only one. Every lexeme has a character, so no two tokens start at the same place
(`isLayout_of_scan`). A cursor on the first token of a source is proper (`isProper_of_scan`).
-/

namespace ScriptCheck

namespace Lexeme

lemma nameKind_ne_eof (name : String) : nameKind name ≠ .eof := by
  have hkinds : ∀ kind ∈ Kind.name :: Kind.reservedWords.map Prod.snd, kind ≠ .eof := by decide
  exact hkinds _ (nameKind_mem name)

/-- No rule reads its lexeme as an end token. -/
lemma reading_ne_eof {rule : Rule} (h : rule ∈ rules) {cs : List Char} (value : String) :
    rule.reading cs ≠ .token .eof value := by
  have hops : ∀ op ∈ Kind.operators, op.2 ≠ Kind.eof := by decide
  rw [rules, List.mem_append] at h
  rcases h with h | h
  · have hname := nameKind_ne_eof (String.ofList cs)
    simp only [List.mem_cons, List.not_mem_nil, or_false] at h
    rcases h with rfl | rfl | rfl | rfl | rfl | rfl | rfl | rfl | rfl | rfl | rfl | rfl <;>
      simp [Rule.skip, Rule.fixed, hname]
  · obtain ⟨op, hop, rfl⟩ := List.mem_map.mp h
    simp [Rule.fixed, hops op hop]

lemma kind_ne_eof_of_first {cs : List Char} {kind : Kind} {value : String} {n : Nat}
    (h : first cs = some (.token kind value, n)) : kind ≠ .eof := by
  rintro rfl
  obtain ⟨rule, hrule, hreading⟩ := List.exists_of_findSome?_eq_some h
  obtain ⟨n', -, heq⟩ := Option.map_eq_some_iff.mp hreading
  exact reading_ne_eof hrule value (congrArg Prod.fst heq)

end Lexeme

/-! ### Readings -/

/-- A text that starts at an offset reads as tokens, the last one an end token. The lexemes of the
other tokens are given too. -/
inductive ReadsAs : (offset : Nat) → List Char → List (List Char) → List Token → Prop
  | done {offset : Nat} : ReadsAs offset [] [] [.ending offset]
  | skip {offset : Nat} {lexeme rest : List Char} {lexemes : List (List Char)}
      {tokens : List Token} : lexeme ≠ [] →
      Lexeme.first (lexeme ++ rest) = some (.nothing, lexeme.length) →
      ReadsAs (offset + Text.byteCount lexeme) rest lexemes tokens →
      ReadsAs offset (lexeme ++ rest) lexemes tokens
  | token {offset : Nat} {lexeme rest : List Char} {lexemes : List (List Char)}
      {tokens : List Token} {kind : Kind} {value : String} : lexeme ≠ [] →
      Lexeme.first (lexeme ++ rest) = some (.token kind value, lexeme.length) →
      ReadsAs (offset + Text.byteCount lexeme) rest lexemes tokens →
      ReadsAs offset (lexeme ++ rest) (lexeme :: lexemes)
        (⟨kind, value, offset, offset + Text.byteCount lexeme⟩ :: tokens)

/-- The characters of a lexeme already read are passed over. -/
lemma scanFrom_covered (file : String) (offset : Nat) (lexeme rest : List Char) :
    scanFrom file offset lexeme.length (lexeme ++ rest) =
      scanFrom file (offset + Text.byteCount lexeme) 0 rest := by
  induction lexeme generalizing offset with
  | nil => rfl
  | cons c lexeme ih =>
      rw [List.length_cons, List.cons_append, scanFrom, ih, Text.byteCount_cons, Nat.add_assoc]

section Step

variable {file : String} {offset : Nat} {lexeme rest : List Char}

lemma scanFrom_skip (hne : lexeme ≠ [])
    (h : Lexeme.first (lexeme ++ rest) = some (.nothing, lexeme.length)) :
    scanFrom file offset 0 (lexeme ++ rest) =
      scanFrom file (offset + Text.byteCount lexeme) 0 rest := by
  obtain ⟨c, lexeme, rfl⟩ := List.exists_cons_of_ne_nil hne
  rw [List.cons_append] at h ⊢
  rw [scanFrom, h, Text.byteCount_cons, ← Nat.add_assoc]
  exact scanFrom_covered file (offset + c.utf8Size) lexeme rest

lemma scanFrom_token {kind : Kind} {value : String} (hne : lexeme ≠ [])
    (h : Lexeme.first (lexeme ++ rest) = some (.token kind value, lexeme.length)) :
    scanFrom file offset 0 (lexeme ++ rest) =
      (scanFrom file (offset + Text.byteCount lexeme) 0 rest).map
        (⟨kind, value, offset, offset + Text.byteCount lexeme⟩ :: ·) := by
  have htake : (lexeme ++ rest).take lexeme.length = lexeme := List.take_left
  obtain ⟨c, lexeme, rfl⟩ := List.exists_cons_of_ne_nil hne
  rw [List.cons_append] at h htake ⊢
  rw [scanFrom, h]
  dsimp only
  rw [htake, List.length_cons, Nat.add_sub_cancel, scanFrom_covered, Text.byteCount_cons,
    ← Nat.add_assoc]
  cases scanFrom file (offset + c.utf8Size + Text.byteCount lexeme) 0 rest <;> rfl

end Step

lemma ReadsAs.scanFrom_eq {file : String} {offset : Nat} {cs : List Char}
    {lexemes : List (List Char)} {tokens : List Token} (h : ReadsAs offset cs lexemes tokens) :
    scanFrom file offset 0 cs = .ok tokens := by
  induction h with
  | done => rw [scanFrom]
  | skip hne hfirst _ ih => rw [scanFrom_skip hne hfirst, ih]
  | token hne hfirst _ ih => rw [scanFrom_token hne hfirst, ih, Except.map]

lemma exists_readsAs_of_scanFrom {file : String} {offset : Nat} {cs : List Char}
    {tokens : List Token} (h : scanFrom file offset 0 cs = .ok tokens) :
    ∃ lexemes, ReadsAs offset cs lexemes tokens := by
  -- over the length of the text, since a step takes a whole lexeme
  induction hlength : cs.length using Nat.strong_induction_on generalizing offset cs tokens with
  | _ length ih =>
    cases cs with
    | nil =>
        rw [scanFrom] at h
        exact ⟨[], Except.ok.inj h ▸ .done⟩
    | cons c cs =>
        cases hfirst : Lexeme.first (c :: cs) with
        | none =>
            rw [scanFrom, hfirst] at h
            cases h
        | some found =>
            obtain ⟨reading, n⟩ := found
            obtain ⟨lexeme, rest, hcs, rfl, hne, -⟩ := Lexeme.lexeme_of_first hfirst
            rw [hcs] at h hfirst hlength ⊢
            have hshorter : rest.length < length := by
              have hpos := List.length_pos_iff.mpr hne
              rw [← hlength, List.length_append]
              omega
            cases reading with
            | nothing =>
                rw [scanFrom_skip hne hfirst] at h
                obtain ⟨lexemes, hrest⟩ := ih _ hshorter h rfl
                exact ⟨lexemes, .skip hne hfirst hrest⟩
            | token kind value =>
                rw [scanFrom_token hne hfirst] at h
                cases hrest : scanFrom file (offset + Text.byteCount lexeme) 0 rest with
                | error fault =>
                    rw [hrest] at h
                    cases h
                | ok later =>
                    rw [hrest] at h
                    obtain ⟨lexemes, hlater⟩ := ih _ hshorter hrest rfl
                    exact ⟨lexeme :: lexemes, Except.ok.inj h ▸ .token hne hfirst hlater⟩

/-- **A scan gives the tokens that the text reads as.** -/
theorem scanFrom_eq_ok_iff {file : String} {offset : Nat} {cs : List Char} {tokens : List Token} :
    scanFrom file offset 0 cs = .ok tokens ↔ ∃ lexemes, ReadsAs offset cs lexemes tokens :=
  ⟨exists_readsAs_of_scanFrom, fun ⟨_, h⟩ => h.scanFrom_eq⟩

/-! ### Slices -/

/-- The token is no end token; its offsets give a slice of the source, which spells it. -/
structure Token.IsTileOf (source : List Char) (t : Token) : Prop where
  kind_ne : t.kind ≠ .eof
  start_lt : t.start < t.stop
  spells : ∃ lexeme, Text.slice? source t.start t.stop = some lexeme ∧
    Lexeme.Spells t.kind t.value lexeme

namespace ReadsAs

variable {offset : Nat} {cs : List Char} {lexemes : List (List Char)} {tokens : List Token}

/-- In a text with more text before it, the tokens before the end token are tiles of the whole, and
their slices are the lexemes. -/
lemma slices (h : ReadsAs offset cs lexemes tokens) {before : List Char}
    (hoffset : Text.byteCount before = offset) :
    ∃ words, tokens = words ++ [.ending (Text.byteCount (before ++ cs))] ∧
      (∀ t ∈ words, t.IsTileOf (before ++ cs)) ∧
      words.map (fun t => Text.slice? (before ++ cs) t.start t.stop) = lexemes.map some := by
  induction h generalizing before with
  | done =>
      refine ⟨[], ?_, List.forall_mem_nil _, rfl⟩
      rw [List.append_nil, hoffset, List.nil_append]
  | @skip offset lexeme rest _ _ _ _ _ ih =>
      have hnext : Text.byteCount (before ++ lexeme) = offset + Text.byteCount lexeme := by
        rw [Text.byteCount_append, hoffset]
      simpa only [List.append_assoc] using ih hnext
  | @token offset lexeme rest _ tokens kind value hne hfirst _ ih =>
      have hnext : Text.byteCount (before ++ lexeme) = offset + Text.byteCount lexeme := by
        rw [Text.byteCount_append, hoffset]
      obtain ⟨words, rfl, htiles, hslices⟩ := ih hnext
      rw [List.append_assoc] at htiles hslices ⊢
      have hslice : Text.slice? (before ++ (lexeme ++ rest)) offset
          (offset + Text.byteCount lexeme) = some lexeme := by
        rw [← hoffset]
        exact Text.slice?_append before lexeme rest
      refine ⟨_ :: words, rfl, ?_, ?_⟩
      · rw [List.forall_mem_cons]
        refine ⟨⟨Lexeme.kind_ne_eof_of_first hfirst, ?_, lexeme, hslice, ?_⟩, htiles⟩
        · exact Nat.lt_add_of_pos_right (Text.byteCount_pos hne)
        · exact Lexeme.fits_of_first hfirst
      · rw [List.map_cons, List.map_cons, hslices, hslice]

/-- The lexemes follow one another. -/
lemma ordered (h : ReadsAs offset cs lexemes tokens) :
    tokens.Pairwise (·.stop ≤ ·.start) ∧ ∀ t ∈ tokens, offset ≤ t.start := by
  induction h with
  | done => simp [Token.ending]
  | skip _ _ _ ih => exact ⟨ih.1, fun t ht => (Nat.le_add_right _ _).trans (ih.2 t ht)⟩
  | token _ _ _ ih =>
      refine ⟨List.pairwise_cons.mpr ⟨ih.2, ih.1⟩, ?_⟩
      rw [List.forall_mem_cons]
      exact ⟨le_rfl, fun t ht => (Nat.le_add_right _ _).trans (ih.2 t ht)⟩

end ReadsAs

/-- A scan stops at a character at which no lexeme starts. -/
lemma scanFrom_error {file : String} {offset covered : Nat} {cs : List Char} {fault : Fault}
    (h : scanFrom file offset covered cs = .error fault) :
    ∃ before c after, cs = before ++ c :: after ∧ Lexeme.first (c :: after) = none ∧
      fault = ⟨.strayCharacter (String.singleton c), ⟨offset + Text.byteCount before, file⟩⟩ := by
  induction cs generalizing offset covered with
  | nil => cases h
  | cons c cs ih =>
      have hlater {covered : Nat} (h : scanFrom file (offset + c.utf8Size) covered cs = .error fault) :
          ∃ before d after, c :: cs = before ++ d :: after ∧ Lexeme.first (d :: after) = none ∧
            fault =
              ⟨.strayCharacter (String.singleton d), ⟨offset + Text.byteCount before, file⟩⟩ := by
        obtain ⟨before, d, after, rfl, hfirst, hfault⟩ := ih h
        refine ⟨c :: before, d, after, rfl, hfirst, ?_⟩
        rw [Text.byteCount_cons, ← Nat.add_assoc]
        exact hfault
      cases covered with
      | succ covered =>
          rw [scanFrom] at h
          exact hlater h
      | zero =>
          rw [scanFrom] at h
          split at h
          case h_1 hfirst => exact ⟨[], c, cs, rfl, hfirst, (Except.error.inj h).symm⟩
          case h_2 => exact hlater h
          case h_3 =>
              split at h
              case h_1 => cases h
              case h_2 hrest => exact hlater (hrest.trans h)

/-! ### Layouts -/

/-- The tokens start one after another, and the last one is their only end token. -/
structure IsLayout (tokens : List Token) : Prop where
  starts : tokens.Pairwise (·.start < ·.start)
  ends : ∃ before last, tokens = before ++ [last] ∧ last.kind = .eof ∧ ∀ t ∈ before, t.kind ≠ .eof

lemma IsLayout.isProper {tokens : List Token} (h : IsLayout tokens) (file : String) :
    Cursor.IsProper { file := file, tokens := tokens.toArray } := by
  obtain ⟨before, last, rfl, hlast, hbefore⟩ := h.ends
  refine ⟨by simp, fun i hi => ?_⟩
  have hi' : i < before.length + 1 := by simpa using hi
  by_cases hend : i = before.length
  · simp [hend, hlast]
  · have hlt : i < before.length := by omega
    have hkind := hbefore before[i] (List.getElem_mem hlt)
    simp [List.getElem_append_left hlt, hkind, hend]

section Starts

variable {tokens : List Token} (hstarts : tokens.Pairwise (·.start < ·.start)) {i j : Nat}
  {t u : Token}
include hstarts

/-- Tokens that start one after another are told apart by their starts. -/
lemma eq_of_start_eq (ht : tokens[i]? = some t) (hu : tokens[j]? = some u)
    (h : t.start = u.start) : i = j := by
  obtain ⟨hi, rfl⟩ := List.getElem?_eq_some_iff.mp ht
  obtain ⟨hj, rfl⟩ := List.getElem?_eq_some_iff.mp hu
  have hlt := List.pairwise_iff_getElem.mp hstarts
  obtain hij | hij | hij := lt_trichotomy i j
  · exact absurd h (hlt i j hi hj hij).ne
  · exact hij
  · exact absurd h (hlt j i hj hi hij).ne'

/-- Only the first token can stand at the start of a file. -/
lemma start_pos (ht : tokens[i]? = some t) (hpos : 0 < i) : 0 < t.start := by
  obtain ⟨hi, rfl⟩ := List.getElem?_eq_some_iff.mp ht
  exact Nat.zero_lt_of_lt (List.pairwise_iff_getElem.mp hstarts 0 i (hpos.trans hi) hi hpos)

end Starts

section Scanned

variable {file : String} {source : List Char} {tokens : List Token}
  (h : scan file source = .ok tokens)
include h

lemma isLayout_of_scan : IsLayout tokens := by
  obtain ⟨lexemes, hreads⟩ := scanFrom_eq_ok_iff.mp h
  obtain ⟨words, rfl, htiles, -⟩ := hreads.slices Text.byteCount_nil
  obtain ⟨hwords, -, hending⟩ := List.pairwise_append.mp hreads.ordered.1
  refine ⟨List.pairwise_append.mpr ⟨?_, List.pairwise_singleton _ _, ?_⟩,
    words, _, rfl, rfl, fun t ht => (htiles t ht).kind_ne⟩
  · exact hwords.imp_of_mem fun ht _ hle => (htiles _ ht).start_lt.trans_le hle
  · exact fun t ht last hlast => (htiles t ht).start_lt.trans_le (hending t ht last hlast)

/-- No token starts after the end of the source, where the end token stands. -/
lemma start_le_of_scan : ∀ t ∈ tokens, t.start ≤ Text.byteCount source := by
  obtain ⟨lexemes, hreads⟩ := scanFrom_eq_ok_iff.mp h
  obtain ⟨words, rfl, htiles, -⟩ := hreads.slices Text.byteCount_nil
  obtain ⟨-, -, hending⟩ := List.pairwise_append.mp hreads.ordered.1
  rw [List.forall_mem_append, List.forall_mem_singleton]
  exact ⟨fun t ht => (htiles t ht).start_lt.le.trans (hending t ht _ (List.mem_singleton_self _)),
    le_rfl⟩

/-- A cursor on the first token of a source is proper. -/
lemma isProper_of_scan : Cursor.IsProper { file := file, tokens := tokens.toArray } :=
  (isLayout_of_scan h).isProper file

end Scanned

end ScriptCheck
