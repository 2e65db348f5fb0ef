import Mathlib.Data.List.DropRight
import ScriptCheck.Analysis.Program
import ScriptCheck.Proofs.Report.Lines
import ScriptCheck.Report.Render

/-!
The marker under a reported character.

A report is shown with its line, without the indentation and the blanks at the end, and a caret
below. There are as many dashes before the caret as there are bytes before the place of the report,
so the caret stands under that place exactly if the line has only basic characters before it
(`caret_counts_bytes`).
-/

namespace ScriptCheck

/-- A text has as many bytes as characters exactly if all its characters are basic ones. -/
lemma byteCount_eq_length_iff {cs : List Char} :
    Text.byteCount cs = cs.length ↔ ∀ c ∈ cs, c.toNat < 0x80 := by
  have hle : ∀ cs : List Char, cs.length ≤ Text.byteCount cs := by
    intro cs
    induction cs with
    | nil => rfl
    | cons c cs ih =>
        have hsize := c.utf8Size_pos
        rw [Text.byteCount_cons, List.length_cons]
        omega
  induction cs with
  | nil => simp
  | cons c cs ih =>
      have hbasic : c.utf8Size = 1 ↔ c.toNat < 0x80 := by
        rw [Char.utf8Size_eq_one_iff, UInt32.le_iff_toNat_le]
        exact Nat.lt_succ_iff.symm
      have hsize := c.utf8Size_pos
      have hrest := hle cs
      rw [Text.byteCount_cons, List.length_cons, List.forall_mem_cons]
      exact Iff.trans (by omega) (and_congr hbasic ih)

/-- Blanks at the end are dropped, but nothing up to a character after which not all is blank. -/
lemma exists_trimRight_eq (lead : List Char) {rest : List Char} {c : Char}
    (h : ∃ x ∈ c :: rest, Text.isBlank x = false) :
    ∃ tail, Text.trimRight (lead ++ c :: rest) = lead ++ c :: tail ∧ tail <+: rest := by
  have hne : Text.trimRight (c :: rest) ≠ [] := by
    obtain ⟨x, hx, hblank⟩ := h
    intro hnil
    have hall := List.rdropWhile_eq_nil_iff.mp hnil x hx
    rw [hblank] at hall
    cases hall
  have htrim : Text.trimRight (lead ++ c :: rest) = lead ++ Text.trimRight (c :: rest) := by
    have hreverse := mt List.reverse_eq_nil_iff.mpr hne
    rw [Text.trimRight, Text.trimRight, List.reverse_append, List.dropWhile_append,
      if_neg (by simpa using hreverse), List.reverse_append, List.reverse_reverse]
  have hpre : Text.trimRight (c :: rest) <+: c :: rest := List.rdropWhile_prefix _ _
  obtain hnil | ⟨tail, htail, hrest⟩ := List.prefix_cons_iff.mp hpre
  · exact absurd hnil hne
  · exact ⟨tail, by rw [htrim, htail], hrest⟩

/-- A line with its number, and under it the marker with so many dashes. -/
def shownLine (number : Nat) (line : List Char) (dashes : Nat) : List Char :=
  let digits := (toString number).toList
  ['\n'] ++ digits ++ [' ', '|', ' '] ++ line ++ ['\n'] ++
    List.replicate (digits.length + 1) ' ' ++ ['|', ' '] ++ List.replicate dashes '-' ++ ['^', '\n']

/-- The dashes are the bytes that are left of the column without the indentation. -/
lemma shownLine_suffix_markedLine {number : Nat} {indent lead rest : List Char} {c : Char}
    (hindent : ∀ x ∈ indent, isIndent x = true)
    (hshown : ∀ x ∈ (lead ++ [c]).head?, isIndent x = false) :
    shownLine number (Text.trimRight (lead ++ c :: rest)) (Text.byteCount lead) <:+
      markedLine ⟨number, indent ++ (lead ++ c :: rest), Text.byteCount (indent ++ lead)⟩ := by
  have hdrop : (indent ++ (lead ++ c :: rest)).dropWhile isIndent = lead ++ c :: rest := by
    rw [List.dropWhile_append_of_pos hindent]
    cases lead <;> simp_all
  have hbytes : Text.byteCount indent = indent.length := by
    rw [byteCount_eq_length_iff]
    intro x hx
    have hx := hindent x hx
    simp only [isIndent, Bool.or_eq_true, beq_iff_eq] at hx
    rcases hx with rfl | rfl <;> decide
  have hcolumn : Text.byteCount (indent ++ lead) -
      ((indent ++ (lead ++ c :: rest)).length - (lead ++ c :: rest).length) =
        Text.byteCount lead := by
    rw [Text.byteCount_append, hbytes, List.length_append, Nat.add_sub_cancel,
      Nat.add_sub_cancel_left]
  simp only [markedLine, hdrop, hcolumn]
  refine ⟨padLeft ' ' ((toString number).toList.length + 2) ['|'], ?_⟩
  simp [shownLine, padLeft]

/-- **The caret counts bytes.** Let a report be about a character of a line after its indentation,
and not all be blank from there on. Then it is shown with the number of the line, the line without
its indentation and blank end, and below a marker that has as many dashes between its bar and the
caret as there are bytes before the character. These are as many as there are characters, and the
caret stands under the right one, exactly if all of them are basic ones. -/
theorem caret_counts_bytes (d : Diagnostic) (before indent lead rest after : List Char) (c : Char)
    (hline : IsLine before (indent ++ (lead ++ c :: rest)) after)
    (hindent : ∀ x ∈ indent, isIndent x = true)
    (hshown : ∀ x ∈ (lead ++ [c]).head?, isIndent x = false)
    (hink : ∃ x ∈ c :: rest, Text.isBlank x = false)
    (hoffset : d.position.offset = Text.byteCount (before ++ (indent ++ lead))) :
    ∃ tail, tail <+: rest ∧
      shownLine (1 + before.count '\n') (lead ++ c :: tail) (Text.byteCount lead) <:+
        (render d (before ++ (indent ++ (lead ++ c :: rest) ++ after))).toList ∧
      (Text.byteCount lead = lead.length ↔ ∀ x ∈ lead, x.toNat < 0x80) := by
  have hcolumn : Text.byteCount (indent ++ lead) <
      Text.byteCount (indent ++ (lead ++ c :: rest)) := by
    have hsize := c.utf8Size_pos
    simp only [Text.byteCount_append, Text.byteCount_cons]
    omega
  have hplace := lineAt_of_isLine hline hcolumn
  rw [← Text.byteCount_append, ← hoffset] at hplace
  obtain ⟨tail, htrim, htail⟩ := exists_trimRight_eq lead hink
  refine ⟨tail, htail, ?_, byteCount_eq_length_iff⟩
  simp only [render, hplace, String.toList_append, String.toList_ofList, ← htrim]
  exact (shownLine_suffix_markedLine hindent hshown).trans (List.suffix_append _ _)

/-- A report about the second letter of an indented line with blanks at its end. -/
def indentedReport : Diagnostic := .ofMessage ⟨6, "main"⟩ .error "m"

theorem caret_counts_bytes_indented :
    ∃ tail, tail <+: [' ', '\n'] ∧
      shownLine 2 ("a b".toList ++ tail) 2 <:+
        (render indentedReport "x\n\t a b \ny".toList).toList ∧
      Text.byteCount "a ".toList = 2 := by
  have hline : IsLine ['x', '\n'] (['\t', ' '] ++ (['a', ' '] ++ 'b' :: [' ', '\n'])) ['y'] :=
    ⟨by simp, by simp, by simp⟩
  obtain ⟨tail, htail, hmarked, hbytes⟩ := caret_counts_bytes indentedReport _ _ _ _ _ _ hline
    (by simp [isIndent]) (by simp [isIndent]) ⟨'b', by simp, by decide⟩ rfl
  exact ⟨tail, htail, hmarked, hbytes.mpr (by simp)⟩

/-- A letter that takes two bytes, before a variable that is not known. -/
def accentedSource : String := "\"é\" . $x;"

/-- The variable is the seventh character of its line, but the caret stands below the eighth. -/
theorem caret_misses_accented :
    (checkSource accentedSource "main" {}).entries.map (render · accentedSource.toList) =
      ["warning: VariableNotDeclared (Variable `$x` is used before assignment)\n-> main\n" ++
        "  |\n1 | \"é\" . $x;\n  | -------^\n"] ∧
    accentedSource.toList.take 7 = ['"', 'é', '"', ' ', '.', ' ', '$'] := by
  decide +kernel

end ScriptCheck
