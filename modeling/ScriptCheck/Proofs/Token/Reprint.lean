import ScriptCheck.Proofs.Token.Tiling

/-!
The lexemes of a source, printed with blanks between them, are read again.

The rules are tried in order, so a lexeme is read again in front of a blank only if its own rule
still applies to just as many characters and no rule before it applies now.

* A blank goes on no name, number or operator, so each recogniser of tokens finds its words in front
  of a blank (`number_append`, `name_append` and so on).
* Whether a rule applies is seen from the first characters, and a blank is none of those it looks for
  (`IsLocal`). Only a block comment and a string look for their end further on, so a lexeme that opens
  one is treated apart (`first_openNote`, `first_quoted`).
* `first_in_print` puts this together, and `reprint_scans_alike` is an induction over the reading.
-/

namespace ScriptCheck.Lexeme

/-- The text is empty or starts with a space. -/
def Apart (after : List Char) : Prop :=
  ∀ c ∈ after.head?, c = ' '

lemma Apart.eq_nil_or_cons {after : List Char} (h : Apart after) :
    after = [] ∨ ∃ rest, after = ' ' :: rest := by
  cases after with
  | nil => exact .inl rfl
  | cons c rest => exact .inr ⟨rest, by rw [h c rfl]⟩

/-! ### Words in front of a blank -/

lemma literal_append (spelling : String) (after : List Char) :
    literal spelling (spelling.toList ++ after) = some spelling.toList.length := by
  rw [literal, if_pos (List.isPrefixOf_iff_prefix.mpr (List.prefix_append _ _))]

/-- A string ends at its own last quote, whatever follows. -/
lemma throughQuote_append {quote : Char} (hquote : quote ≠ '\\') {body : List Char}
    (h : Quotable quote body) (after : List Char) :
    throughQuote quote (body ++ quote :: after) = some (body.length + 1) := by
  induction h with
  | nil =>
      rw [List.nil_append, throughQuote, if_pos (beq_self_eq_true quote), List.length_nil]
      exact hquote
  | @plain c cs hc hescape _ ih =>
      rw [List.cons_append, throughQuote, if_neg (by simpa using hc), ih, Option.map_some,
        List.length_cons]
      exact hescape
  | escaped c _ ih =>
      rw [List.cons_append, List.cons_append, throughQuote, ih]
      rfl

lemma quoted_append {quote : Char} (hquote : quote = '"' ∨ quote = '\'') {body : List Char}
    (h : Quotable quote body) (after : List Char) :
    quoted quote (quote :: (body ++ [quote]) ++ after) =
      some (quote :: (body ++ [quote])).length := by
  have hescape : quote ≠ '\\' := by
    rintro rfl
    simp at hquote
  rw [List.cons_append, List.append_assoc, List.singleton_append, quoted,
    if_pos (beq_self_eq_true quote), throughQuote_append hescape h, List.length_cons,
    List.length_append]
  rfl

lemma nameTail_cons {c : Char} (hc : c ≠ '\\') (rest : List Char) :
    nameTail (c :: rest) = if isNameRest c = true then 1 + nameTail rest else 0 := by
  rw [nameTail]
  exact fun _ _ h => absurd h hc

/-- What a name goes on with does not come next. -/
def NameEnds (after : List Char) : Prop :=
  ∀ c ∈ after.head?, isNameRest c = false ∧ c ≠ '\\'

lemma Apart.nameEnds {after : List Char} (h : Apart after) : NameEnds after := by
  intro c hc
  rw [h c hc]
  decide

lemma nameTail_append {after : List Char} (hafter : NameEnds after) {tail : List Char}
    (h : NameTail tail) : nameTail (tail ++ after) = tail.length := by
  induction h with
  | nil =>
      cases after with
      | nil => rfl
      | cons c rest =>
          obtain ⟨hrest, hne⟩ := hafter c rfl
          rw [List.nil_append, nameTail_cons hne, if_neg (by simp [hrest]), List.length_nil]
  | @rest c cs hc _ ih =>
      have hne : c ≠ '\\' := by
        rintro rfl
        exact absurd hc (by decide)
      rw [List.cons_append, nameTail_cons hne, if_pos hc, ih, List.length_cons, Nat.add_comm 1]
  | @separator c cs hc _ ih =>
      rw [List.cons_append, List.cons_append, nameTail, if_pos hc, ih, List.length_cons,
        List.length_cons, Nat.add_comm 2]

lemma name_append {after : List Char} (hafter : NameEnds after) {lexeme : List Char}
    (h : IsName lexeme) : name (lexeme ++ after) = some lexeme.length := by
  cases h with
  | @plain c tail hc htail =>
      have hne : c ≠ '\\' := by
        rintro rfl
        exact absurd hc (by decide)
      rw [List.cons_append, name, if_pos hc, nameTail_append hafter htail, List.length_cons,
        Nat.add_comm 1]
      exact fun _ _ h => absurd h hne
  | @separated c tail hc htail =>
      rw [List.cons_append, List.cons_append, name, if_pos hc, nameTail_append hafter htail,
        List.length_cons, List.length_cons, Nat.add_comm 2]

section Apart

variable {after : List Char} (hafter : Apart after)
include hafter

lemma takeWhile_append {p : Char → Bool} (hp : p ' ' = false) {cs : List Char}
    (hcs : ∀ c ∈ cs, p c = true) : (cs ++ after).takeWhile p = cs := by
  rw [List.takeWhile_append_of_pos hcs]
  obtain rfl | ⟨rest, rfl⟩ := hafter.eq_nil_or_cons
  · rw [List.takeWhile_nil, List.append_nil]
  · rw [List.takeWhile_cons_of_neg (by simp [hp]), List.append_nil]

lemma dollarName_append {lexeme : List Char} (h : IsVariable lexeme) :
    dollarName (lexeme ++ after) = some lexeme.length := by
  cases h with
  | @mk c tail hstart htail =>
      rw [List.cons_append, List.cons_append, dollarName, simpleName, if_pos hstart,
        takeWhile_append hafter (by decide) htail, List.length_cons, List.length_cons, Nat.add_comm 1]
      rfl

lemma number_append {lexeme : List Char} (h : IsNumber lexeme) :
    number (lexeme ++ after) = some lexeme.length := by
  cases h with
  | whole hwhole =>
      have hlength : lexeme.length ≠ 0 := by simpa using hwhole.nonempty
      rw [number, takeWhile_append hafter (by decide) hwhole.digits]
      split
      case h_1 hzero => exact absurd hzero hlength
      case h_2 =>
        rw [List.drop_left]
        obtain rfl | ⟨rest, rfl⟩ := hafter.eq_nil_or_cons <;> rfl
  | @fraction whole fraction hwhole hfraction =>
      have hdigits : ((whole ++ '.' :: fraction) ++ after).takeWhile isDigit = whole := by
        rw [List.append_assoc, List.takeWhile_append_of_pos hwhole.digits, List.cons_append,
          List.takeWhile_cons_of_neg (by decide), List.append_nil]
      have hlength : whole.length ≠ 0 := by simpa using hwhole.nonempty
      have hfraction' : fraction.length ≠ 0 := by simpa using hfraction.nonempty
      rw [number, hdigits]
      split
      case h_1 hzero => exact absurd hzero hlength
      case h_2 =>
        rw [List.append_assoc, List.drop_left, List.cons_append]
        split
        case h_1 rest hpoint =>
          rw [← (List.cons.inj hpoint).2, takeWhile_append hafter (by decide) hfraction.digits]
          split
          case h_1 hzero => exact absurd hzero hfraction'
          case h_2 => rw [List.length_append, List.length_cons, Nat.add_assoc, Nat.add_comm 1]
        case h_2 hpoint => exact absurd rfl (hpoint _)

end Apart

/-! ### Rules that do not apply -/

/-- The text starts with characters of the given kinds. -/
def startsWith : List (Char → Bool) → List Char → Bool
  | [], _ => true
  | _ :: _, [] => false
  | p :: kinds, c :: cs => p c && startsWith kinds cs

lemma startsWith_append {kinds : List (Char → Bool)} {cs : List Char}
    (h : startsWith kinds cs = true) (rest : List Char) :
    startsWith kinds (cs ++ rest) = true := by
  induction kinds, cs using startsWith.induct with
  | case1 => rw [startsWith]
  | case2 => cases h
  | case3 p kinds c cs ih =>
      obtain ⟨hc, hcs⟩ := Bool.and_eq_true_iff.mp h
      exact Bool.and_eq_true_iff.mpr ⟨hc, ih hcs⟩

/-- A start without blanks is a start of the lexeme. -/
lemma startsWith_of_append {after : List Char} (hafter : Apart after) {kinds : List (Char → Bool)}
    (hkinds : ∀ p ∈ kinds, p ' ' = false) {lexeme : List Char}
    (h : startsWith kinds (lexeme ++ after) = true) : startsWith kinds lexeme = true := by
  induction kinds, lexeme using startsWith.induct with
  | case1 => rw [startsWith]
  | case2 p kinds =>
      obtain rfl | ⟨rest, rfl⟩ := hafter.eq_nil_or_cons
      · cases h
      · have hp := (Bool.and_eq_true_iff.mp h).1
        rw [hkinds p List.mem_cons_self] at hp
        cases hp
  | case3 p kinds c cs ih =>
      obtain ⟨hc, hcs⟩ := Bool.and_eq_true_iff.mp h
      exact Bool.and_eq_true_iff.mpr
        ⟨hc, ih (fun q hq => hkinds q (List.mem_cons_of_mem p hq)) hcs⟩

/-- The recogniser applies to a text exactly if the text starts in one of the ways. -/
def OpensBy (length : List Char → Option Nat) (openings : List (List (Char → Bool))) : Prop :=
  ∀ cs, (length cs).isSome = true ↔ ∃ kinds ∈ openings, startsWith kinds cs = true

/-- The characters of a spelling, as kinds of characters. -/
def spelled (spelling : List Char) : List (Char → Bool) :=
  spelling.map fun c d => c == d

lemma startsWith_spelled (spelling cs : List Char) :
    startsWith (spelled spelling) cs = spelling.isPrefixOf cs := by
  induction spelling generalizing cs with
  | nil => rw [spelled, List.map_nil, startsWith, List.isPrefixOf]
  | cons c spelling ih =>
      cases cs with
      | nil => rfl
      | cons d cs => rw [spelled, List.map_cons, startsWith, ← spelled, ih, List.isPrefixOf]

lemma opensBy_literal (spelling : String) :
    OpensBy (literal spelling) [spelled spelling.toList] := by
  intro cs
  simp [literal, startsWith_spelled]

lemma opensBy_blanks : OpensBy blanks [[Text.isBlank]] := by
  intro cs
  cases cs with
  | nil => simp [blanks, startsWith]
  | cons c cs => by_cases hc : Text.isBlank c = true <;> simp [blanks, startsWith, hc]

lemma opensBy_lineComment :
    OpensBy lineComment [[(· == '/'), (· == '/')], [(· == '#')]] := by
  rintro (_ | ⟨c, _ | ⟨d, cs⟩⟩)
  · simp [lineComment, startsWith]
  · by_cases hhash : c = '#' <;> simp [lineComment, startsWith, hhash]
  · by_cases hhash : c = '#'
    · simp [lineComment, startsWith, hhash]
    · by_cases hslash : c = '/'
      · by_cases hsecond : d = '/' <;> simp [lineComment, startsWith, hslash, hsecond]
      · simp [lineComment, startsWith, hhash, hslash]

lemma opensBy_dollarName : OpensBy dollarName [[(· == '$'), isNameStart]] := by
  rintro (_ | ⟨c, _ | ⟨d, cs⟩⟩)
  · simp [dollarName, startsWith]
  · by_cases hc : c = '$' <;> simp [dollarName, simpleName, startsWith, hc]
  · by_cases hc : c = '$' <;> simp [dollarName, simpleName, startsWith, hc]

lemma opensBy_name : OpensBy name [[(· == '\\'), isNameStart], [isNameStart]] := by
  rintro (_ | ⟨c, _ | ⟨d, cs⟩⟩)
  · simp [name, startsWith]
  · by_cases hc : c = '\\' <;> simp [name, startsWith, hc]
  · by_cases hc : c = '\\'
    · have hstart : isNameStart '\\' = false := by decide
      simp [name, startsWith, hc, hstart]
    · simp [name, startsWith, hc]

lemma opensBy_number : OpensBy number [[isDigit]] := by
  intro cs
  have hstart : (∃ kinds ∈ [[isDigit]], startsWith kinds cs = true) ↔
      (cs.takeWhile isDigit).length ≠ 0 := by
    cases cs with
    | nil => simp [startsWith]
    | cons c cs => by_cases hc : isDigit c = true <;> simp [startsWith, hc]
  rw [hstart, number]
  split
  case h_1 hzero => simp [hzero]
  case h_2 hne =>
    refine iff_of_true ?_ hne
    split
    · split <;> rfl
    · rfl

/-- What opens a lexeme that goes on to an end of its own: a block comment or a string. -/
def enclosers : List (List Char) := [['/', '*'], ['"'], ['\'']]

/-- The lexeme starts like a block comment or a string. -/
def isEnclosing (lexeme : List Char) : Bool :=
  enclosers.any fun opening => startsWith (spelled opening) lexeme

/-- The recogniser cannot tell other texts after a lexeme from a blank: if it does not apply where
the lexeme stands in a source, it does not apply where the lexeme is printed. -/
def IsLocal (length : List Char → Option Nat) : Prop :=
  ∀ lexeme rest after : List Char, lexeme ≠ [] → isEnclosing lexeme = false → Apart after →
    length (lexeme ++ rest) = none → length (lexeme ++ after) = none

lemma OpensBy.isLocal {length : List Char → Option Nat} {openings : List (List (Char → Bool))}
    (h : OpensBy length openings) (hblank : ∀ kinds ∈ openings, ∀ p ∈ kinds, p ' ' = false) :
    IsLocal length := by
  intro lexeme rest after _ _ hafter hnone
  rw [← Option.not_isSome_iff_eq_none, h] at hnone ⊢
  rintro ⟨kinds, hkinds, hstarts⟩
  have hlexeme := startsWith_of_append hafter (hblank kinds hkinds) hstarts
  exact hnone ⟨kinds, hkinds, startsWith_append hlexeme rest⟩

lemma isLocal_literal {spelling : String} (h : ' ' ∉ spelling.toList) :
    IsLocal (literal spelling) := by
  refine (opensBy_literal spelling).isLocal ?_
  simp only [List.forall_mem_singleton, spelled, List.forall_mem_map, beq_eq_false_iff_ne]
  rintro c hc rfl
  exact h hc

lemma isLocal_blanks : IsLocal blanks := by
  intro lexeme rest after hne _ _ hnone
  obtain ⟨c, lexeme, rfl⟩ := List.exists_cons_of_ne_nil hne
  rw [← Option.not_isSome_iff_eq_none, opensBy_blanks] at hnone ⊢
  simpa [startsWith] using hnone

/-- A recogniser of enclosing lexemes is never asked about others. -/
lemma isLocal_of_encloser {length : List Char → Option Nat} {opening : List Char}
    (hmem : opening ∈ enclosers)
    (h : ∀ cs, (length cs).isSome = true → startsWith (spelled opening) cs = true) :
    IsLocal length := by
  intro lexeme rest after _ henclosing hafter _
  have hblank : ∀ opening ∈ enclosers, ∀ p ∈ spelled opening, p ' ' = false := by
    simp [enclosers, spelled]
  rw [← Option.not_isSome_iff_eq_none]
  intro hsome
  have hstarts := startsWith_of_append hafter (hblank opening hmem) (h _ hsome)
  rw [isEnclosing, List.any_eq_false] at henclosing
  exact henclosing opening hmem hstarts

lemma isLocal_blockComment : IsLocal blockComment := by
  refine isLocal_of_encloser (List.mem_cons_self : ['/', '*'] ∈ enclosers) fun cs hsome => ?_
  rw [blockComment.eq_def] at hsome
  split at hsome
  · rfl
  · cases hsome

lemma isLocal_quoted {quote : Char} (h : [quote] ∈ enclosers) : IsLocal (quoted quote) := by
  refine isLocal_of_encloser h fun cs hsome => ?_
  rw [quoted.eq_def] at hsome
  split at hsome
  case h_1 c cs =>
    split at hsome
    case isTrue hquote =>
      obtain rfl := beq_iff_eq.mp hquote
      simp [spelled, startsWith]
    case isFalse => cases hsome
  case h_2 => cases hsome

lemma isLocal_of_mem {rule : Rule} (h : rule ∈ rules) : IsLocal rule.length := by
  have hoperators : ∀ op ∈ Kind.operators, ' ' ∉ op.1.toList := by decide
  have hall : ∀ rule ∈ rules, IsLocal rule.length := by
    rw [rules, List.forall_mem_append, List.forall_mem_map]
    refine ⟨?_, fun op hop => isLocal_literal (hoperators op hop)⟩
    simp only [List.forall_mem_cons]
    exact ⟨isLocal_literal (by simp), isLocal_literal (by simp), isLocal_blanks,
      isLocal_literal (by simp), isLocal_literal (by simp), isLocal_blockComment,
      opensBy_lineComment.isLocal (by simp), opensBy_dollarName.isLocal (by simp; decide),
      opensBy_name.isLocal (by simp; decide), opensBy_number.isLocal (by simp; decide),
      isLocal_quoted (by simp [enclosers]), isLocal_quoted (by simp [enclosers]),
      List.forall_mem_nil _⟩
  exact hall rule h

/-! ### The lexeme at the start of a print -/

lemma first_eq_of_split {cs : List Char} {n : Nat} {earlier later : List Rule} {rule : Rule}
    (hrules : rules = earlier ++ rule :: later) (hearlier : ∀ r ∈ earlier, r.length cs = none)
    (hlength : rule.length cs = some n) : first cs = some (rule.reading (cs.take n), n) := by
  rw [first, List.findSome?_eq_some_iff]
  refine ⟨earlier, rule, later, hrules, ?_, fun r hr => ?_⟩
  · rw [hlength, Option.map_some]
  · rw [hearlier r hr, Option.map_none]

lemma exists_split_of_first {cs : List Char} {n : Nat} {reading : Reading}
    (h : first cs = some (reading, n)) :
    ∃ earlier rule later, rules = earlier ++ rule :: later ∧
      (∀ r ∈ earlier, r.length cs = none) ∧ rule.length cs = some n ∧
      rule.reading (cs.take n) = reading := by
  rw [first, List.findSome?_eq_some_iff] at h
  obtain ⟨earlier, rule, later, hrules, hrule, hearlier⟩ := h
  obtain ⟨m, hm, heq⟩ := Option.map_eq_some_iff.mp hrule
  obtain ⟨rfl, rfl⟩ := Prod.mk.inj heq
  exact ⟨earlier, rule, later, hrules, fun r hr => Option.map_eq_none_iff.mp (hearlier r hr), hm, rfl⟩

lemma first_openNote (after : List Char) :
    first ("/*.".toList ++ after) = some (.token .openNote "/*.", "/*.".toList.length) :=
  rfl

lemma first_quoted {quote : Char} (hquote : quote = '"' ∨ quote = '\'') {body : List Char}
    (h : Quotable quote body) (after : List Char) :
    first (quote :: (body ++ [quote]) ++ after) =
      some (.token .text (literalText quote (quote :: (body ++ [quote]))),
        (quote :: (body ++ [quote])).length) := by
  have hfirst : ∃ earlier later, rules = earlier ++
      ⟨quoted quote, fun cs => .token .text (literalText quote cs)⟩ :: later ∧
      ∀ r ∈ earlier, r.length (quote :: (body ++ [quote]) ++ after) = none := by
    obtain rfl | rfl := hquote
    · refine ⟨rules.take 10, rules.drop 11, rfl, ?_⟩
      simp only [rules, List.cons_append, List.take_succ_cons, List.take_zero, List.forall_mem_cons]
      exact ⟨rfl, rfl, rfl, rfl, rfl, rfl, rfl, rfl, rfl, rfl, List.forall_mem_nil _⟩
    · refine ⟨rules.take 11, rules.drop 12, rfl, ?_⟩
      simp only [rules, List.cons_append, List.take_succ_cons, List.take_zero, List.forall_mem_cons]
      exact ⟨rfl, rfl, rfl, rfl, rfl, rfl, rfl, rfl, rfl, rfl, rfl, List.forall_mem_nil _⟩
  obtain ⟨earlier, later, hrules, hearlier⟩ := hfirst
  rw [first_eq_of_split hrules hearlier (quoted_append hquote h after), List.take_left]

/-- The rule's tokens are printable: the rule recognises the lexeme of one in front of a blank too,
and if the lexeme is enclosing no other rule is tried before it. -/
def Rule.IsPrintable (rule : Rule) : Prop :=
  ∀ lexeme rest after kind value, rule.length (lexeme ++ rest) = some lexeme.length →
    rule.reading lexeme = .token kind value → Apart after →
    rule.length (lexeme ++ after) = some lexeme.length ∧
      (isEnclosing lexeme = true →
        first (lexeme ++ after) = some (.token kind value, lexeme.length))

lemma isPrintable_skip (length : List Char → Option Nat) : (Rule.skip length).IsPrintable := by
  intro _ _ _ _ _ _ hreading
  cases hreading

/-- A rule is printable if its lexemes have a form in which they are recognised in front of a blank
and are not enclosing. -/
lemma isPrintable_of_form {rule : Rule} (Form : List Char → Prop)
    (hform : ∀ {cs : List Char} {n : Nat}, rule.length cs = some n →
      ∃ lexeme rest, cs = lexeme ++ rest ∧ lexeme.length = n ∧ Form lexeme)
    (happend : ∀ {after : List Char}, Apart after → ∀ {lexeme : List Char}, Form lexeme →
      rule.length (lexeme ++ after) = some lexeme.length)
    (hopen : ∀ lexeme, Form lexeme → isEnclosing lexeme = false) : rule.IsPrintable := by
  intro lexeme rest after kind value hlength _ hafter
  obtain ⟨_, _, heq, hsame, hlexeme⟩ := hform hlength
  obtain ⟨rfl, rfl⟩ := List.append_inj heq hsame.symm
  refine ⟨happend hafter hlexeme, fun henclosing => ?_⟩
  rw [hopen lexeme hlexeme] at henclosing
  cases henclosing

lemma isPrintable_fixed {spelling : String} {kind : Kind}
    (h : isEnclosing spelling.toList = false) : (Rule.fixed spelling kind).IsPrintable := by
  refine isPrintable_of_form (· = spelling.toList) (fun hlength => ?_) (fun _ _ hlexeme => ?_)
    fun lexeme hlexeme => hlexeme ▸ h
  · obtain ⟨rest, hcs, hn⟩ := eq_append_of_literal hlength
    exact ⟨spelling.toList, rest, hcs, hn, rfl⟩
  · rw [hlexeme]
    exact literal_append spelling _

lemma isPrintable_openNote : (Rule.fixed "/*." .openNote).IsPrintable := by
  intro lexeme rest after kind value hlength hreading _
  obtain ⟨_, heq, hsame⟩ := eq_append_of_literal hlength
  obtain ⟨rfl, rfl⟩ := List.append_inj heq hsame.symm
  cases hreading
  exact ⟨literal_append "/*." after, fun _ => first_openNote after⟩

lemma isPrintable_quoted {quote : Char} (hquote : quote = '"' ∨ quote = '\'') :
    Rule.IsPrintable ⟨quoted quote, fun cs => .token .text (literalText quote cs)⟩ := by
  intro lexeme rest after kind value hlength hreading _
  obtain ⟨body, _, heq, hsame, hbody⟩ := eq_append_of_quoted hlength
  obtain ⟨rfl, rfl⟩ := List.append_inj heq hsame.symm
  cases hreading
  exact ⟨quoted_append hquote hbody after, fun _ => first_quoted hquote hbody after⟩

lemma forall_ne_of_kind {p : Char → Bool} {others : List Char} (hp : others.any p = false)
    {c : Char} (hc : p c = true) : ∀ d ∈ others, d ≠ c := by
  rintro d hd rfl
  exact List.any_eq_false.mp hp d hd hc

/-- A character of a kind without slashes and quotes opens no comment or string. -/
lemma isEnclosing_eq_false (p : Char → Bool) (hp : ['/', '"', '\''].any p = false) {c : Char}
    (hc : p c = true) (cs : List Char) : isEnclosing (c :: cs) = false := by
  have hne := forall_ne_of_kind hp hc
  simp only [List.forall_mem_cons] at hne
  simp [isEnclosing, enclosers, spelled, startsWith, hne]

lemma IsNumber.exists_cons {lexeme : List Char} (h : IsNumber lexeme) :
    ∃ c cs, lexeme = c :: cs ∧ isDigit c = true := by
  have hdigits : ∀ {cs : List Char}, IsDigits cs → ∃ c tail, cs = c :: tail ∧ isDigit c = true := by
    intro cs hcs
    obtain ⟨c, tail, rfl⟩ := List.exists_cons_of_ne_nil hcs.nonempty
    exact ⟨c, tail, rfl, hcs.digits c List.mem_cons_self⟩
  cases h with
  | whole hwhole => exact hdigits hwhole
  | fraction hwhole _ =>
      obtain ⟨c, tail, rfl, hc⟩ := hdigits hwhole
      exact ⟨c, _, rfl, hc⟩

lemma isPrintable_of_mem {rule : Rule} (h : rule ∈ rules) : rule.IsPrintable := by
  have hoperators : ∀ op ∈ Kind.operators, isEnclosing op.1.toList = false := by decide
  have hall : ∀ rule ∈ rules, rule.IsPrintable := by
    rw [rules, List.forall_mem_append, List.forall_mem_map]
    refine ⟨?_, fun op hop => isPrintable_fixed (hoperators op hop)⟩
    simp only [List.forall_mem_cons]
    refine ⟨isPrintable_skip _, isPrintable_skip _, isPrintable_skip _, isPrintable_openNote,
      isPrintable_fixed (by decide), isPrintable_skip _, isPrintable_skip _,
      isPrintable_of_form _ eq_append_of_dollarName dollarName_append ?_,
      isPrintable_of_form _ eq_append_of_name (fun hafter => name_append hafter.nameEnds) ?_,
      isPrintable_of_form _ eq_append_of_number number_append ?_,
      isPrintable_quoted (.inl rfl), isPrintable_quoted (.inr rfl), List.forall_mem_nil _⟩
    · rintro _ ⟨_, _⟩
      exact isEnclosing_eq_false (· == '$') (by decide) rfl _
    · rintro _ (⟨hc, _⟩ | _)
      · exact isEnclosing_eq_false isNameStart (by decide) hc _
      · exact isEnclosing_eq_false (· == '\\') (by decide) rfl _
    · intro lexeme hlexeme
      obtain ⟨c, cs, rfl, hc⟩ := hlexeme.exists_cons
      exact isEnclosing_eq_false isDigit (by decide) hc _
  exact hall rule h

/-- **A lexeme is read again where it is printed.** -/
theorem first_in_print {lexeme rest : List Char} {kind : Kind} {value : String}
    (h : first (lexeme ++ rest) = some (.token kind value, lexeme.length)) (hne : lexeme ≠ [])
    {after : List Char} (hafter : Apart after) :
    first (lexeme ++ after) = some (.token kind value, lexeme.length) := by
  obtain ⟨earlier, rule, later, hrules, hearlier, hlength, hreading⟩ := exists_split_of_first h
  rw [List.take_left] at hreading
  have hmem : ∀ r, r ∈ earlier ∨ r = rule → r ∈ rules := by
    intro r hr
    rw [hrules, List.mem_append, List.mem_cons]
    exact hr.imp_right .inl
  obtain ⟨hagain, hfirst⟩ :=
    isPrintable_of_mem (hmem rule (.inr rfl)) lexeme rest after kind value hlength hreading hafter
  cases henclosing : isEnclosing lexeme with
  | true => exact hfirst henclosing
  | false =>
      -- the rules tried before see no more than in the source, where they did not apply
      rw [first_eq_of_split hrules (fun r hr => ?_) hagain, List.take_left, hreading]
      exact isLocal_of_mem (hmem r (.inl hr)) lexeme rest after hne henclosing hafter
        (hearlier r hr)

/-! ### Blanks between lexemes -/

lemma first_of_isBlank {c : Char} (hc : Text.isBlank c = true) (cs : List Char) :
    first (c :: cs) = some (.nothing, (cs.takeWhile Text.isBlank).length + 1) := by
  have hmarks : ∀ d ∈ ['<', '?'], d ≠ c := forall_ne_of_kind (by decide) hc
  simp only [List.forall_mem_cons] at hmarks
  have hlength : (Rule.skip blanks).length (c :: cs) =
      some ((cs.takeWhile Text.isBlank).length + 1) := by
    simp [Rule.skip, blanks, hc]
  have hrules : rules = rules.take 2 ++ Rule.skip blanks :: rules.drop 3 := rfl
  refine first_eq_of_split hrules ?_ hlength
  simp [rules, Rule.skip, literal, hmarks]

/-- A blank starts no token. -/
lemma isBlank_head_of_first {c : Char} {cs : List Char} {kind : Kind} {value : String} {n : Nat}
    (h : first (c :: cs) = some (.token kind value, n)) : Text.isBlank c = false := by
  cases hc : Text.isBlank c with
  | false => rfl
  | true =>
      rw [first_of_isBlank hc] at h
      cases h

/-- One space before a lexeme is passed over by itself. -/
lemma first_space {cs : List Char} (h : ∀ c ∈ cs.head?, Text.isBlank c = false) :
    first (' ' :: cs) = some (.nothing, 1) := by
  rw [first_of_isBlank (by decide)]
  cases cs with
  | nil => rfl
  | cons c cs => rw [List.takeWhile_cons_of_neg (by simp [h c rfl]), List.length_nil]

end ScriptCheck.Lexeme

namespace ScriptCheck

/-- The kinds and texts of tokens. -/
def readings (tokens : List Token) : List (Kind × String) :=
  tokens.map fun t => (t.kind, t.value)

/-- The lexemes of a reading, printed with a space between each two, read as the same tokens but for
the offsets. -/
lemma ReadsAs.reprint {offset : Nat} {cs : List Char} {lexemes : List (List Char)}
    {tokens : List Token} (h : ReadsAs offset cs lexemes tokens) (start : Nat) :
    (∀ c ∈ ([' '].intercalate lexemes).head?, Text.isBlank c = false) ∧
    ∃ again, ReadsAs start ([' '].intercalate lexemes) lexemes again ∧
      readings again = readings tokens := by
  induction h generalizing start with
  | done => exact ⟨by simp, [.ending start], .done, rfl⟩
  | skip _ _ _ ih => exact ih start
  | @token offset lexeme rest lexemes tokens kind value hne hfirst _ ih =>
      have hhead : ∀ after, ∀ c ∈ (lexeme ++ after).head?, Text.isBlank c = false := by
        obtain ⟨c, tail, rfl⟩ := List.exists_cons_of_ne_nil hne
        intro after d hd
        obtain rfl := Option.some.inj hd
        exact Lexeme.isBlank_head_of_first hfirst
      cases lexemes with
      | nil =>
          obtain ⟨-, again, hagain, hsame⟩ := ih (start + Text.byteCount lexeme)
          have hapart : Lexeme.Apart [] := fun c hc => by cases hc
          refine ⟨hhead [], _, .token hne (Lexeme.first_in_print hfirst hne hapart) hagain, ?_⟩
          exact congrArg ((kind, value) :: ·) hsame
      | cons next lexemes =>
          -- the space is passed over alone, since the next lexeme starts with no blank
          obtain ⟨hnext, again, hagain, hsame⟩ := ih (start + Text.byteCount lexeme + 1)
          have hapart : Lexeme.Apart (' ' :: [' '].intercalate (next :: lexemes)) := by
            rintro c ⟨⟩
            rfl
          have hspace : ReadsAs (start + Text.byteCount lexeme)
              ([' '] ++ [' '].intercalate (next :: lexemes)) (next :: lexemes) again :=
            .skip (by simp) (Lexeme.first_space hnext) hagain
          refine ⟨hhead _, _, .token hne (Lexeme.first_in_print hfirst hne hapart) hspace, ?_⟩
          exact congrArg ((kind, value) :: ·) hsame

/-- **Printing tokens and scanning again changes nothing.** The slices of a source between the
offsets of its tokens, the end token apart, make a text when joined by single spaces; it scans, and
its tokens have the kinds and texts of those of the source. -/
theorem reprint_scans_alike (source file : String) (tokens : List Token)
    (h : scan file source.toList = .ok tokens) :
    ∃ slices, (tokens.filter (·.kind != .eof)).map
        (fun t => Text.slice? source.toList t.start t.stop) = slices.map some ∧
      ∃ again, scan file ([' '].intercalate slices) = .ok again ∧
        readings again = readings tokens := by
  obtain ⟨lexemes, hreads⟩ := scanFrom_eq_ok_iff.mp h
  obtain ⟨words, rfl, htiles, hslices⟩ := hreads.slices Text.byteCount_nil
  have hwords : (words ++ [Token.ending (Text.byteCount source.toList)]).filter
      (·.kind != Kind.eof) = words := by
    rw [List.filter_append, List.filter_eq_self.mpr fun t ht => by simpa using (htiles t ht).kind_ne]
    exact List.append_nil words
  obtain ⟨-, again, hagain, hsame⟩ := hreads.reprint 0
  refine ⟨lexemes, ?_, again, hagain.scanFrom_eq, hsame⟩
  exact hwords.symm ▸ hslices

/-- A source with no blank between its lexemes and a comment at its end. -/
def denseSource : String := "/*.a.*/$x=1.5.'\\'';# end"

/-- The print has blanks inside the annotation and no comment. -/
theorem reprint_scans_alike_denseSource :
    ∃ tokens, scan "main" denseSource.toList = .ok tokens ∧
      ∃ again, scan "main" "/*. a .*/ $x = 1.5 . '\\'' ;".toList = .ok again ∧
        readings again = readings tokens := by
  have hscan : scan "main" denseSource.toList = .ok
      [⟨.openNote, "/*.", 0, 3⟩, ⟨.name, "a", 3, 4⟩, ⟨.closeNote, ".*/", 4, 7⟩, ⟨.var, "x", 7, 9⟩,
        ⟨.assign, "=", 9, 10⟩, ⟨.number, "1.5", 10, 13⟩, ⟨.dot, ".", 13, 14⟩, ⟨.text, "'", 14, 18⟩,
        ⟨.semicolon, ";", 18, 19⟩, .ending 24] := by decide +kernel
  obtain ⟨slices, hslices, hagain⟩ := reprint_scans_alike denseSource "main" _ hscan
  have hlexemes : slices = ["/*.", "a", ".*/", "$x", "=", "1.5", ".", "'\\''", ";"].map (·.toList) := by
    refine List.map_injective_iff.mpr (Option.some_injective _) (hslices.symm.trans ?_)
    decide +kernel
  subst hlexemes
  exact ⟨_, hscan, hagain⟩

end ScriptCheck
