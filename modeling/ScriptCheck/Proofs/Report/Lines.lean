import ScriptCheck.Proofs.Text.Bytes
import ScriptCheck.Report.Line

/-!
Lines and columns of offsets.

* `IsLine` says without a search what a line of a source is: a piece that starts the source or
  follows a line feed, has none inside, and ends with one or with the source.
* `splitLines_of_isLine`: a line is one of the pieces that the source is split into, and its number
  counts the line feeds before it. So the search among the pieces finds it (`lineAt_of_isLine`).
* `exists_isLine`: every offset in a source lies on a line.
* `lineAt_locates`: hence the line, number and column of an offset are what they should be.
-/

namespace ScriptCheck

/-! ### Lines of a source -/

/-- The middle one of three pieces of a source is a line of it, with its line feed if it has one. -/
structure IsLine (before line after : List Char) : Prop where
  starts : ∀ c ∈ before.getLast?, c = '\n'
  unbroken : '\n' ∉ line.dropLast
  ends : line.getLast? = some '\n' ∨ after = []

/-- The number of line feeds that start before a byte offset. -/
def lineFeedsBefore : List Char → Nat → Nat
  | [], _ => 0
  | c :: cs, offset =>
      if offset = 0 then 0
      else (if c = '\n' then 1 else 0) + lineFeedsBefore cs (offset - c.utf8Size)

lemma lineFeedsBefore_append (before cs : List Char) (n : Nat) :
    lineFeedsBefore (before ++ cs) (Text.byteCount before + n) =
      before.count '\n' + lineFeedsBefore cs n := by
  induction before with
  | nil => simp
  | cons c before ih =>
      have hsize := c.utf8Size_pos
      rw [Text.byteCount_cons, List.cons_append, lineFeedsBefore, if_neg (by omega), Nat.add_assoc,
        Nat.add_sub_cancel_left, ih, List.count_cons]
      simp only [beq_iff_eq]
      omega

/-- There is no line feed on a line before a place on it. -/
lemma lineFeedsBefore_line {line : List Char} (h : '\n' ∉ line.dropLast) (after : List Char)
    {column : Nat} (hcolumn : column < Text.byteCount line) :
    lineFeedsBefore (line ++ after) column = 0 := by
  induction line generalizing column with
  | nil => cases hcolumn
  | cons c line ih =>
      rw [Text.byteCount_cons] at hcolumn
      rw [List.cons_append, lineFeedsBefore]
      split_ifs with hzero hfeed
      · rfl
      · cases line with
        | nil =>
            rw [hfeed, show ('\n' : Char).utf8Size = 1 from rfl, Text.byteCount_nil] at hcolumn
            omega
        | cons d line => exact absurd (hfeed ▸ List.mem_cons_self) h
      · cases line with
        | nil =>
            rw [Text.byteCount_nil] at hcolumn
            rw [Nat.sub_eq_zero_of_le (by omega)]
            cases after <;> rfl
        | cons d line =>
            have hrest := Text.byteCount_pos (List.cons_ne_nil d line)
            rw [ih (fun hmem => h (List.mem_cons_of_mem _ hmem)) (by omega)]

/-! ### Splitting -/

/-- The lines of a text, one after another, are the text. -/
lemma flatten_splitLines (cs : List Char) : (splitLines cs).flatten = cs := by
  induction cs with
  | nil => rfl
  | cons c cs ih =>
      rw [splitLines]
      split_ifs
      · rw [List.flatten_cons, ih]
        rfl
      · split
        next hnone =>
          rw [hnone] at ih
          rw [← ih]
          rfl
        next line lines hsome =>
          rw [hsome] at ih
          rw [← ih]
          rfl

/-- A text that ends with a line feed is split apart from what follows it. -/
lemma splitLines_append {before : List Char} (h : ∀ c ∈ before.getLast?, c = '\n')
    (cs : List Char) :
    splitLines (before ++ cs) = splitLines before ++ splitLines cs ∧
      (splitLines before).length = before.count '\n' := by
  induction before with
  | nil => exact ⟨rfl, rfl⟩
  | cons c before ih =>
      have hbefore : ∀ d ∈ before.getLast?, d = '\n' := by
        intro d hd
        refine h d ?_
        rw [List.getLast?_cons, Option.mem_def.mp hd]
        rfl
      obtain ⟨hsplit, hlength⟩ := ih hbefore
      rw [List.cons_append, splitLines, splitLines, hsplit, List.count_cons]
      by_cases hc : c = '\n'
      · subst hc
        exact ⟨rfl, congrArg (· + 1) hlength⟩
      · rw [if_neg (by simpa using hc), if_neg (by simpa using hc), if_neg (by simpa using hc)]
        cases hlines : splitLines before with
        | cons line lines =>
            rw [hlines] at hlength
            exact ⟨rfl, hlength⟩
        | nil =>
            -- the text would consist of the one character, which is no line feed
            have hnil := flatten_splitLines before
            rw [hlines] at hnil
            rw [← hnil] at h
            exact absurd (h c rfl) hc

lemma splitLines_line {line after : List Char} (hline : line ≠ []) (h : '\n' ∉ line.dropLast)
    (hends : line.getLast? = some '\n' ∨ after = []) :
    splitLines (line ++ after) = line :: splitLines after := by
  induction line with
  | nil => exact absurd rfl hline
  | cons c line ih =>
      rw [List.cons_append, splitLines]
      cases line with
      | nil =>
          obtain hc | rfl := hends
          · obtain rfl : c = '\n' := Option.some.inj hc
            rfl
          · split_ifs <;> rfl
      | cons d line =>
          have hc : c ≠ '\n' := fun hc => h (hc ▸ List.mem_cons_self)
          rw [if_neg (by simpa using hc),
            ih (List.cons_ne_nil d line) (fun hmem => h (List.mem_cons_of_mem _ hmem)) hends]

/-- A line is a piece of its own, after as many others as there are line feeds before it. -/
lemma splitLines_of_isLine {before line after : List Char} (h : IsLine before line after)
    (hline : line ≠ []) :
    splitLines (before ++ (line ++ after)) = splitLines before ++ line :: splitLines after ∧
      (splitLines before).length = before.count '\n' := by
  obtain ⟨hsplit, hlength⟩ := splitLines_append h.starts (line ++ after)
  exact ⟨hsplit.trans (by rw [splitLines_line hline h.unbroken h.ends]), hlength⟩

/-! ### Searching -/

lemma lineAmong_append (number : Nat) (earlier later : List (List Char)) {line : List Char}
    {column : Nat} (h : column < Text.byteCount line) :
    lineAmong number (earlier ++ line :: later) (Text.byteCount earlier.flatten + column) =
      some ⟨number + earlier.length, line, column⟩ := by
  induction earlier generalizing number with
  | nil => simp [lineAmong, h]
  | cons first earlier ih =>
      rw [List.cons_append, lineAmong, List.flatten_cons, Text.byteCount_append, if_neg (by omega),
        Nat.add_assoc, Nat.add_sub_cancel_left, ih, List.length_cons, Nat.add_assoc, Nat.add_comm 1]

lemma lineAmong_eq_none {number : Nat} {lines : List (List Char)} {offset : Nat}
    (h : Text.byteCount lines.flatten ≤ offset) : lineAmong number lines offset = none := by
  induction lines generalizing number offset with
  | nil => rfl
  | cons line lines ih =>
      rw [List.flatten_cons, Text.byteCount_append] at h
      rw [lineAmong, if_neg (by omega)]
      exact ih (by omega)

/-- A place on a line is found on that line. -/
lemma lineAt_of_isLine {before line after : List Char} (h : IsLine before line after) {column : Nat}
    (hcolumn : column < Text.byteCount line) :
    lineAt (before ++ (line ++ after)) (Text.byteCount before + column) =
      some ⟨1 + before.count '\n', line, column⟩ := by
  have hline : line ≠ [] := by
    rintro rfl
    cases hcolumn
  obtain ⟨hsplit, hlength⟩ := splitLines_of_isLine h hline
  have hfound := lineAmong_append 1 (splitLines before) (splitLines after) hcolumn
  rw [flatten_splitLines, hlength, ← hsplit] at hfound
  simp only [lineAt, hfound]

/-- A character in front of a line stands on it, unless the character is a line feed or other lines
come before. -/
lemma IsLine.cons {before line after : List Char} (h : IsLine before line after) (hline : line ≠ [])
    (c : Char) :
    if before = [] ∧ c ≠ '\n' then IsLine [] (c :: line) after
    else IsLine (c :: before) line after := by
  obtain ⟨d, line, rfl⟩ := List.exists_cons_of_ne_nil hline
  split_ifs with hjoin
  · exact ⟨by simp, List.not_mem_cons_of_ne_of_not_mem hjoin.2.symm h.unbroken, h.ends⟩
  · refine ⟨?_, h.unbroken, h.ends⟩
    cases before with
    | nil => simpa using hjoin
    | cons e before => exact h.starts

/-- Every offset in a source lies on a line. -/
lemma exists_isLine {source : List Char} {offset : Nat} (h : offset < Text.byteCount source) :
    ∃ before line after column, source = before ++ (line ++ after) ∧ IsLine before line after ∧
      Text.byteCount before + column = offset ∧ column < Text.byteCount line := by
  induction source generalizing offset with
  | nil => cases h
  | cons c cs ih =>
      rw [Text.byteCount_cons] at h
      by_cases hfirst : offset < c.utf8Size ∧ (c = '\n' ∨ cs = [])
      · refine ⟨[], [c], cs, offset, rfl, ⟨by simp, by simp, ?_⟩, by simp, by simpa using hfirst.1⟩
        simpa using hfirst.2
      · have hcs : offset < c.utf8Size → 0 < Text.byteCount cs := fun hlt =>
          Text.byteCount_pos fun hnil => hfirst ⟨hlt, .inr hnil⟩
        obtain ⟨before, line, after, column, rfl, hline, hbefore, hcolumn⟩ :=
          @ih (offset - c.utf8Size) (by omega)
        have hcons := hline.cons (by rintro rfl; cases hcolumn) c
        split_ifs at hcons with hjoin
        · obtain ⟨rfl, -⟩ := hjoin
          rw [Text.byteCount_nil] at hbefore
          refine ⟨[], c :: line, after, offset, rfl, hcons, Nat.zero_add _, ?_⟩
          rw [Text.byteCount_cons]
          omega
        · -- an offset in the character itself would be on the first line
          have hle : c.utf8Size ≤ offset := by
            by_contra hlt
            refine hjoin ⟨?_, fun hc => hfirst ⟨by omega, .inl hc⟩⟩
            by_contra hne
            have := Text.byteCount_pos hne
            omega
          refine ⟨c :: before, line, after, column, rfl, hcons, ?_, hcolumn⟩
          rw [Text.byteCount_cons]
          omega

/-! ### The end of the source -/

/-- From the end on no line is found, but the end counts as that of the last one. -/
lemma lineAt_of_le {source : List Char} {offset : Nat} (h : Text.byteCount source ≤ offset) :
    lineAt source offset = if offset = Text.byteCount source then
      some ⟨max (splitLines source).length 1, (splitLines source).getLastD [],
        Text.byteCount (((splitLines source).getLastD []).filter (· != '\n'))⟩ else none := by
  rw [← flatten_splitLines source] at h
  simp only [lineAt, lineAmong_eq_none h]

/-- The end of a source is the end of the line that holds its last byte, or of the empty line. -/
lemma lineAt_end (source : List Char) : ∃ before line text, source = before ++ line ∧
    IsLine before line [] ∧ (line = [] → source = []) ∧
    '\n' ∉ text ∧ (line = text ∨ line = text ++ ['\n']) ∧
    lineAt source (Text.byteCount source) =
      some ⟨1 + before.count '\n', line, Text.byteCount text⟩ := by
  by_cases hsource : source = []
  · subst hsource
    exact ⟨[], [], [], rfl, ⟨by simp, by simp, .inr rfl⟩, fun _ => rfl, by simp, .inl rfl, rfl⟩
  have hpos := Text.byteCount_pos hsource
  obtain ⟨before, line, after, column, rfl, hline, hbefore, hcolumn⟩ :=
    exists_isLine (Nat.sub_lt hpos Nat.one_pos)
  obtain rfl : after = [] := by
    by_contra hne
    have hafter := Text.byteCount_pos hne
    simp only [Text.byteCount_append] at hbefore hpos
    omega
  have hne : line ≠ [] := by
    rintro rfl
    cases hcolumn
  obtain ⟨hsplit, hlength⟩ := splitLines_of_isLine hline hne
  refine ⟨before, line, line.filter (· != '\n'), by simp, hline, fun h => absurd h hne, by simp,
    ?_, ?_⟩
  · have hinit : line.dropLast.filter (· != '\n') = line.dropLast :=
      List.filter_eq_self.mpr fun c hc => by simpa using fun h : c = '\n' => hline.unbroken (h ▸ hc)
    obtain ⟨init, c, rfl⟩ := (List.eq_nil_or_concat' line).resolve_left hne
    rw [List.dropLast_concat] at hinit
    rw [List.filter_append, hinit]
    by_cases hc : c = '\n' <;> simp [hc]
  · rw [lineAt_of_le le_rfl, if_pos rfl, hsplit]
    simp [splitLines, hlength, Nat.add_comm]

/-- There is a line for every offset in a source, its end included. -/
lemma exists_lineAt {source : List Char} {offset : Nat} (h : offset ≤ Text.byteCount source) :
    ∃ place, lineAt source offset = some place := by
  obtain hlt | rfl := Nat.lt_or_eq_of_le h
  · obtain ⟨before, line, after, column, rfl, hline, rfl, hcolumn⟩ := exists_isLine hlt
    exact ⟨_, lineAt_of_isLine hline hcolumn⟩
  · obtain ⟨_, _, _, -, -, -, -, -, hend⟩ := lineAt_end source
    exact ⟨_, hend⟩

/-- **Offsets map to the right line and column.** Beyond the end of a source there is no line. For
an offset in the source the line is the one that it lies on, numbered by the line feeds before the
offset, and the column is the distance from the start of the line. The end of the source belongs to
the last line, after its text. -/
theorem lineAt_locates (source : List Char) (offset : Nat) :
    (lineAt source offset = none ↔ Text.byteCount source < offset) ∧
    (offset < Text.byteCount source → ∃ before line after column,
      source = before ++ (line ++ after) ∧ IsLine before line after ∧
      Text.byteCount before + column = offset ∧ column < Text.byteCount line ∧
      lineAt source offset = some ⟨1 + lineFeedsBefore source offset, line, column⟩) ∧
    ∃ before line text, source = before ++ line ∧ IsLine before line [] ∧
      (line = [] → source = []) ∧ '\n' ∉ text ∧ (line = text ∨ line = text ++ ['\n']) ∧
      lineAt source (Text.byteCount source) =
        some ⟨1 + before.count '\n', line, Text.byteCount text⟩ := by
  refine ⟨⟨fun hnone => ?_, fun h => ?_⟩, fun h => ?_, lineAt_end source⟩
  · by_contra hle
    obtain ⟨place, hplace⟩ := exists_lineAt (Nat.le_of_not_lt hle)
    rw [hplace] at hnone
    cases hnone
  · rw [lineAt_of_le h.le, if_neg h.ne']
  · obtain ⟨before, line, after, column, rfl, hline, rfl, hcolumn⟩ := exists_isLine h
    refine ⟨before, line, after, column, rfl, hline, rfl, hcolumn, ?_⟩
    rw [lineAt_of_isLine hline hcolumn, lineFeedsBefore_append,
      lineFeedsBefore_line hline.unbroken after hcolumn, Nat.add_zero]

end ScriptCheck
