import Mathlib.Data.List.TakeWhile
import Mathlib.Tactic
import ScriptCheck.Descriptor.Grammar

/-!
Modern spellings.

A modern spelling is a name followed by tags. Reading one gives back the name and the tags it was
written with, and nothing else is read (`parse?_eq_some_iff`). The older form starts with the word
`array`; a spelling whose name is another word is never taken for it (`modernForm?_modern`), and
turning the older form into the modern one leaves no spelling whose name is that word
(`not_isArrayWord_of_parse?`). So a name under which a type is kept is always the spelling of that
name, never the bare word for a container of anything.
-/

namespace ScriptCheck.Descriptor

/-! ### Tags -/

lemma writeTags_cons (key : Keys) (tags : List Keys) :
    writeTags (key :: tags) = key.tag.toList ++ writeTags tags :=
  List.flatMap_cons

/-- Tags that are written in front of a text are read back in front of the tags of the text. -/
lemma readTags_writeTags_append (tags : List Keys) (rest : List Char) :
    readTags (writeTags tags ++ rest) = (tags ++ (readTags rest).1, (readTags rest).2) := by
  induction tags with
  | nil => rfl
  | cons key tags ih =>
      rw [writeTags_cons, List.append_assoc]
      cases key <;> simp [Keys.tag, readTags, ih]

lemma readTags_writeTags (tags : List Keys) : readTags (writeTags tags) = (tags, []) := by
  have h := readTags_writeTags_append tags []
  simpa [readTags] using h

/-- What is read as tags is how the tags are written. -/
lemma writeTags_readTags (cs : List Char) :
    writeTags (readTags cs).1 ++ (readTags cs).2 = cs := by
  fun_induction readTags cs with
  | case1 rest tags rest' h ih => simp_all [writeTags_cons, Keys.tag]
  | case2 rest tags rest' h ih => simp_all [writeTags_cons, Keys.tag]
  | case3 rest tags rest' h ih => simp_all [writeTags_cons, Keys.tag]
  | case4 rest => simp [writeTags]

/-- Tags start with a bracket. -/
lemma eq_cons_of_writeTags (key : Keys) (tags : List Keys) :
    ∃ rest, writeTags (key :: tags) = '[' :: rest := by
  rw [writeTags_cons]
  cases key <;> exact ⟨_, rfl⟩

/-- A text from which tags are read starts with a bracket. -/
lemma eq_cons_of_readTags {cs : List Char} (h : (readTags cs).1 ≠ []) :
    ∃ rest, cs = '[' :: rest := by
  obtain ⟨key, tags, htags⟩ := List.exists_cons_of_ne_nil h
  obtain ⟨rest, hrest⟩ := eq_cons_of_writeTags key tags
  refine ⟨rest ++ (readTags cs).2, ?_⟩
  rw [← List.cons_append, ← hrest, ← htags, writeTags_readTags]

/-! ### Names -/

/-- A name that a descriptor may have. -/
def IsName (name : List Char) : Prop :=
  ∃ c rest, name = c :: rest ∧ isNameStart c = true ∧ ∀ d ∈ rest, isNameRest d = true

/-- Whether a name is the word that starts the older form. -/
def IsArrayWord (name : List Char) : Prop :=
  name.map Char.toLower = arrayWord

instance (name : List Char) : Decidable (IsArrayWord name) :=
  inferInstanceAs (Decidable (name.map Char.toLower = arrayWord))

lemma isNameRest_of_isNameStart {c : Char} (h : isNameStart c = true) : isNameRest c = true := by
  simp [isNameRest, h]

lemma IsName.isNameRest {name : List Char} (h : IsName name) :
    ∀ c ∈ name, isNameRest c = true := by
  obtain ⟨c, rest, rfl, hc, hrest⟩ := h
  intro d hd
  rcases List.mem_cons.mp hd with rfl | hd
  · exact isNameRest_of_isNameStart hc
  · exact hrest d hd

lemma bracket_not_mem {name : List Char} (h : ∀ c ∈ name, isNameRest c = true) : '[' ∉ name :=
  fun hmem => absurd (h _ hmem) (by decide)

lemma IsName.not_bracket_mem {name : List Char} (h : IsName name) : '[' ∉ name :=
  bracket_not_mem h.isNameRest

lemma IsArrayWord.not_bracket_mem {name : List Char} (h : IsArrayWord name) : '[' ∉ name := by
  intro hmem
  have hlower : Char.toLower '[' ∈ arrayWord := h ▸ List.mem_map_of_mem hmem
  exact absurd hlower (by decide)

lemma IsArrayWord.length_eq {name : List Char} (h : IsArrayWord name) :
    name.length = arrayWord.length := by
  rw [← h, List.length_map]

/-- The tags start where the name cannot go on. -/
lemma takeWhile_name {rest : List Char} (hrest : ∀ d ∈ rest, isNameRest d = true)
    (tags : List Keys) : (rest ++ writeTags tags).takeWhile isNameRest = rest := by
  have htags : (writeTags tags).takeWhile isNameRest = [] := by
    cases tags with
    | nil => rfl
    | cons key tags =>
        obtain ⟨more, hmore⟩ := eq_cons_of_writeTags key tags
        rw [hmore, List.takeWhile_cons_of_neg (by decide)]
  rw [List.takeWhile_append_of_pos hrest, htags, List.append_nil]

lemma dropWhile_name {rest : List Char} (hrest : ∀ d ∈ rest, isNameRest d = true)
    (tags : List Keys) : (rest ++ writeTags tags).dropWhile isNameRest = writeTags tags := by
  have hsplit := List.takeWhile_append_dropWhile (p := isNameRest) (l := rest ++ writeTags tags)
  rw [takeWhile_name hrest] at hsplit
  exact List.append_cancel_left hsplit

/-- **A modern spelling is read as the name and tags it is written with, and nothing else is
read.** -/
lemma parse?_eq_some_iff {cs name : List Char} {tags : List Keys} :
    parse? cs = some (name, tags) ↔ IsName name ∧ cs = name ++ writeTags tags := by
  constructor
  · intro h
    cases cs with
    | nil => cases h
    | cons c cs =>
        rw [parse?] at h
        split at h
        case isTrue hc =>
          have hsplit := writeTags_readTags (cs.dropWhile isNameRest)
          split at h
          case h_1 tags' hread =>
            rw [hread, List.append_nil] at hsplit
            obtain ⟨rfl, rfl⟩ : c :: cs.takeWhile isNameRest = name ∧ tags' = tags := by
              simpa using h
            refine ⟨⟨c, _, rfl, hc, fun d hd => List.mem_takeWhile_imp hd⟩, ?_⟩
            rw [hsplit, List.cons_append, List.takeWhile_append_dropWhile]
          case h_2 => cases h
        case isFalse => cases h
  · rintro ⟨⟨c, rest, rfl, hc, hrest⟩, rfl⟩
    rw [List.cons_append, parse?, if_pos hc, dropWhile_name hrest, readTags_writeTags,
      takeWhile_name hrest]

/-! ### The base of a text -/

/-- The text splits before its first bracket. -/
lemma splitTags_append {base rest : List Char} (hbase : '[' ∉ base)
    (hrest : rest = [] ∨ ∃ more, rest = '[' :: more) : splitTags (base ++ rest) = (base, rest) := by
  have hall : ∀ c ∈ base, (c != '[') = true := by
    intro c hc
    have hne : c ≠ '[' := fun he => hbase (he ▸ hc)
    simpa using hne
  rw [splitTags, List.span_eq_takeWhile_dropWhile, List.takeWhile_append_of_pos hall,
    List.dropWhile_append_of_pos hall]
  rcases hrest with rfl | ⟨more, rfl⟩
  · simp
  · simp

lemma splitTags_join (cs : List Char) : (splitTags cs).1 ++ (splitTags cs).2 = cs := by
  rw [splitTags, List.span_eq_takeWhile_dropWhile, List.takeWhile_append_dropWhile]

lemma not_bracket_mem_base (cs : List Char) : '[' ∉ (splitTags cs).1 := by
  rw [splitTags, List.span_eq_takeWhile_dropWhile]
  intro hmem
  simpa using List.mem_takeWhile_imp hmem

lemma writeTags_eq_nil_or (tags : List Keys) :
    writeTags tags = [] ∨ ∃ more, writeTags tags = '[' :: more := by
  cases tags with
  | nil => exact Or.inl rfl
  | cons key tags => exact Or.inr (eq_cons_of_writeTags key tags)

/-- The base of a modern spelling is its name. -/
lemma splitTags_modern {name : List Char} (hname : IsName name) (tags : List Keys) :
    splitTags (name ++ writeTags tags) = (name, writeTags tags) :=
  splitTags_append hname.not_bracket_mem (writeTags_eq_nil_or tags)

lemma tags_eq_nil_or (cs : List Char) :
    (splitTags cs).2 = [] ∨ ∃ more, (splitTags cs).2 = '[' :: more := by
  rw [splitTags, List.span_eq_takeWhile_dropWhile]
  cases hdrop : cs.dropWhile (· != '[') with
  | nil => exact Or.inl rfl
  | cons c more =>
      have hc := List.dropWhile_get_zero_not (· != '[') cs (by simp [hdrop])
      simp only [hdrop, List.get_eq_getElem, List.getElem_cons_zero, bne_iff_ne, ne_eq,
        not_not] at hc
      exact Or.inr ⟨more, by rw [hc]⟩

/-- A text into which tags were inserted is a modern spelling only if it was one before. -/
lemma modern_of_insertTag {cs name : List Char} {tags more : List Keys} (hname : IsName name)
    (h : insertTag cs (writeTags tags) = name ++ writeTags more) :
    ∃ inner, cs = name ++ writeTags inner := by
  have hbehind : writeTags tags ++ (splitTags cs).2 = [] ∨
      ∃ after, writeTags tags ++ (splitTags cs).2 = '[' :: after := by
    rcases writeTags_eq_nil_or tags with htags | ⟨after, htags⟩
    · rw [htags, List.nil_append]
      exact tags_eq_nil_or cs
    · exact Or.inr ⟨after ++ (splitTags cs).2, by rw [htags, List.cons_append]⟩
  have hsplit : splitTags (insertTag cs (writeTags tags)) =
      ((splitTags cs).1, writeTags tags ++ (splitTags cs).2) := by
    rw [← splitTags_append (not_bracket_mem_base cs) hbehind, ← List.append_assoc]
    rfl
  rw [h, splitTags_modern hname, Prod.mk.injEq] at hsplit
  obtain ⟨hbase, htags⟩ := hsplit
  -- what stands behind the inserted tags is read as tags to its end
  have hread := readTags_writeTags_append tags (splitTags cs).2
  rw [← htags, readTags_writeTags, Prod.mk.injEq] at hread
  have hinner := writeTags_readTags (splitTags cs).2
  rw [← hread.2, List.append_nil] at hinner
  refine ⟨(readTags (splitTags cs).2).1, ?_⟩
  rw [hinner, hbase, splitTags_join]

/-! ### The older form -/

lemma afterArray?_eq_some {cs rest : List Char} (h : afterArray? cs = some rest) :
    ∃ word, IsArrayWord word ∧ cs = word ++ rest := by
  rw [afterArray?] at h
  split at h
  case isTrue hword =>
      refine ⟨cs.take arrayWord.length, beq_iff_eq.mp hword, ?_⟩
      rw [← Option.some.inj h, List.take_append_drop]
  case isFalse => cases h

/-- A text in the older form has the word `array` before its first bracket. -/
lemma isArrayWord_of_modernWithin {depth : Nat} {cs text : List Char}
    (h : modernWithin depth cs = some text) : IsArrayWord (splitTags cs).1 := by
  have hword : ∀ {rest}, afterArray? cs = some rest → (rest = [] ∨ ∃ more, rest = '[' :: more) →
      IsArrayWord (splitTags cs).1 := by
    intro rest hafter hrest
    obtain ⟨word, hword, rfl⟩ := afterArray?_eq_some hafter
    rw [splitTags_append hword.not_bracket_mem hrest]
    exact hword
  cases depth with
  | zero => cases h
  | succ depth =>
      rw [modernWithin] at h
      split at h
      · cases h
      case h_2 hafter => exact hword hafter (Or.inl rfl)
      case h_3 rest _ hafter =>
        split at h
        · cases h
        case h_2 tags after hne hread =>
          have htags : (readTags rest).1 ≠ [] := by
            rw [hread]
            exact hne
          exact hword hafter (Or.inr (eq_cons_of_readTags htags))

/-- Tags behind another word are not in the older form. -/
lemma modernForm?_modern {name : List Char} (hname : '[' ∉ name) (harray : ¬ IsArrayWord name)
    (tags : List Keys) : modernForm? (name ++ writeTags tags) = none := by
  cases h : modernForm? (name ++ writeTags tags) with
  | none => rfl
  | some text =>
      have hbase := isArrayWord_of_modernWithin h
      rw [splitTags_append hname (writeTags_eq_nil_or tags)] at hbase
      exact absurd hbase harray

/-- The word `array` with tags behind it is in the older form. -/
lemma modernWithin_arrayWord {name : List Char} (harray : IsArrayWord name) (depth : Nat)
    (tags : List Keys) :
    modernWithin (depth + 1) (name ++ writeTags tags) ≠ none := by
  have hafter : afterArray? (name ++ writeTags tags) = some (writeTags tags) := by
    rw [afterArray?, ← harray.length_eq, List.take_left, List.drop_left, harray, if_pos (beq_self_eq_true _)]
  rw [modernWithin, hafter]
  cases tags with
  | nil => simp [writeTags]
  | cons key tags =>
      obtain ⟨more, hmore⟩ := eq_cons_of_writeTags key tags
      have hread := readTags_writeTags (key :: tags)
      rw [hmore] at hread ⊢
      simp [hread]

/-- The modern form of a text is that of a container of anything, or has tags inserted into the
modern form of an element. -/
lemma modernWithin_eq_some {depth : Nat} {cs text : List Char}
    (h : modernWithin (depth + 1) cs = some text) :
    (∃ tags, text = "mixed".toList ++ writeTags tags) ∨
      ∃ element tags, element.length < cs.length ∧
        text = insertTag ((modernWithin depth element).getD element) (writeTags tags) := by
  rw [modernWithin] at h
  split at h
  · cases h
  · exact Or.inl ⟨[.either], (Option.some.inj h).symm⟩
  case h_3 rest _ hafter =>
    have hlength : rest.length < cs.length := by
      obtain ⟨word, hword, rfl⟩ := afterArray?_eq_some hafter
      rw [List.length_append, hword.length_eq]
      exact Nat.lt_add_of_pos_left (by decide)
    split at h
    · cases h
    case h_2 tags after _ hread =>
      split at h
      · exact Or.inl ⟨tags, (Option.some.inj h).symm⟩
      case h_2 element helement =>
        split at h
        · cases h
        · refine Or.inr ⟨_, tags, ?_, (Option.some.inj h).symm⟩
          have hjoin := congrArg List.length (writeTags_readTags rest)
          rw [hread, List.length_append] at hjoin
          have hdrop := (List.dropWhile_suffix (l := after) Text.isBlank).length_le
          dsimp only at hjoin
          omega

/-- Where a text is brought into the modern form and then read, the name is another word than
`array`. -/
lemma not_isArrayWord_of_modernWithin (depth : Nat) {cs name : List Char} {tags : List Keys}
    (hdepth : cs.length < depth)
    (h : parse? ((modernWithin depth cs).getD cs) = some (name, tags)) : ¬ IsArrayWord name := by
  induction depth generalizing cs name tags with
  | zero => omega
  | succ depth ih =>
      obtain ⟨hname, htext⟩ := parse?_eq_some_iff.mp h
      cases hmodern : modernWithin (depth + 1) cs with
      | none =>
          rw [hmodern, Option.getD_none] at htext
          exact fun harray => modernWithin_arrayWord harray depth tags (htext ▸ hmodern)
      | some text =>
          rw [hmodern, Option.getD_some] at htext
          rcases modernWithin_eq_some hmodern with ⟨tags', rfl⟩ | ⟨element, tags', hlt, rfl⟩
          · have hmixed : IsName "mixed".toList :=
              ⟨'m', "ixed".toList, rfl, by decide, List.all_eq_true.mp (by decide)⟩
            have hbase := congrArg splitTags htext
            rw [splitTags_modern hmixed, splitTags_modern hname, Prod.mk.injEq] at hbase
            rw [← hbase.1]
            decide
          · -- the element has the same name, and is shorter
            obtain ⟨inner, hinner⟩ := modern_of_insertTag hname htext
            exact ih (by omega) (parse?_eq_some_iff.mpr ⟨hname, hinner⟩)

lemma not_isArrayWord_of_parse? {cs name : List Char} {tags : List Keys}
    (h : parse? ((modernForm? cs).getD cs) = some (name, tags)) : ¬ IsArrayWord name :=
  not_isArrayWord_of_modernWithin (cs.length + 1) (Nat.lt_succ_self _) h

end ScriptCheck.Descriptor
