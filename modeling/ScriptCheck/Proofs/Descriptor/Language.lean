import ScriptCheck.Proofs.Descriptor.Transparency

/-!
The language of type descriptors.

A `Form` is a descriptor without its spelling: a name under some tags, or one of the older forms with
the word `array`. `Form.IsWritten` says which texts spell a form, and `Form.type?` what the form
means, container by container; neither of them looks at how texts are read.

* `Form.parse?_of_isWritten`: the text of a form is brought into the modern form whose name and tags
  the form comes down to (`Form.flat`).
* `exists_isWritten`: a text without a blank at its end that can be read that way spells a form.
* `compile_eq_ok_iff`: so compiling gives a type exactly if the text without the blanks around it
  spells a form that means this type.
-/

namespace ScriptCheck

namespace Descriptor

/-! ### Forms -/

/-- A descriptor without its spelling. The tags of the older forms are given by the first and the
others, since there is at least one. -/
inductive Form where
  | named (name : List Char) (tags : List Keys)
  | bareArray
  | arrayOfAnything (key : Keys) (tags : List Keys)
  | arrayOf (key : Keys) (tags : List Keys) (element : Form)

namespace Form

/-- The text spells the form. -/
inductive IsWritten : Form → List Char → Prop
  | named {name : List Char} (tags : List Keys) (hname : IsName name) (hword : ¬ IsArrayWord name) :
      IsWritten (.named name tags) (name ++ writeTags tags)
  | bareArray {word : List Char} (hword : IsArrayWord word) : IsWritten .bareArray word
  | arrayOfAnything {word : List Char} (key : Keys) (tags : List Keys) (hword : IsArrayWord word) :
      IsWritten (.arrayOfAnything key tags) (word ++ writeTags (key :: tags))
  | arrayOf {word blanks text : List Char} {element : Form} (key : Keys) (tags : List Keys)
      (hword : IsArrayWord word) (hblanks : ∀ c ∈ blanks, Text.isBlank c = true)
      (helement : IsWritten element text) (hline : '\n' ∉ text) :
      IsWritten (.arrayOf key tags element) (word ++ (writeTags (key :: tags) ++ (blanks ++ text)))

/-- The type that the form means, if its name has one. -/
def type? (t : ClassTable) : Form → Option Ty
  | named name tags => (named? t (String.ofList name)).map fun type => tags.foldr Ty.container type
  | bareArray => some (.container .either .mixed)
  | arrayOfAnything key tags => some ((key :: tags).foldr Ty.container .mixed)
  | arrayOf key tags element =>
      (element.type? t).map fun type => (key :: tags).foldr Ty.container type

/-- The name and the tags of the modern form. -/
def flat : Form → List Char × List Keys
  | named name tags => (name, tags)
  | bareArray => ("mixed".toList, [.either])
  | arrayOfAnything key tags => ("mixed".toList, key :: tags)
  | arrayOf key tags element => (element.flat.1, key :: tags ++ element.flat.2)

lemma named?_mixed (t : ClassTable) : named? t (String.ofList "mixed".toList) = some .mixed := rfl

/-- A form means the containers of its tags around the type of its name. -/
lemma type?_eq (t : ClassTable) (form : Form) :
    form.type? t = (named? t (String.ofList form.flat.1)).map
      fun type => form.flat.2.foldr Ty.container type := by
  induction form with
  | named name tags => rfl
  | bareArray => rfl
  | arrayOfAnything key tags =>
      rw [flat, named?_mixed]
      rfl
  | arrayOf key tags element ih =>
      rw [type?, ih, flat, Option.map_map]
      simp only [Function.comp_def, List.foldr_append]

end Form

/-! ### Letters -/

/-- Lowering changes letters only, into letters. -/
lemma toLower_cases (c : Char) :
    c.toLower = c ∨ isNameStart c = true ∧ isNameStart c.toLower = true := by
  delta Char.toLower
  split
  case isFalse => exact .inl rfl
  case isTrue h =>
    obtain ⟨hlo, hhi⟩ := h
    refine .inr ⟨?_, ?_⟩
    · have hcapital : ('A' ≤ c && c ≤ 'Z') = true := by
        simpa [Char.le_def] using ⟨hlo, hhi⟩
      simp only [isNameStart, hcapital, Bool.or_true, Bool.true_or]
    · have hsmall : 97 ≤ c.val + 32 ∧ c.val + 32 ≤ 122 := by
        simp only [ge_iff_le, UInt32.le_iff_toNat_le, UInt32.toNat_add] at hlo hhi ⊢
        simp at hlo hhi ⊢
        omega
      simp [isNameStart, Char.le_def, hsmall]

lemma isNameStart_toLower (c : Char) : isNameStart c.toLower = isNameStart c := by
  rcases toLower_cases c with h | ⟨h, h'⟩
  · rw [h]
  · rw [h, h']

lemma isNameRest_toLower (c : Char) : isNameRest c.toLower = isNameRest c := by
  rcases toLower_cases c with h | ⟨h, h'⟩
  · rw [h]
  · rw [isNameRest_of_isNameStart h, isNameRest_of_isNameStart h']

/-! ### The start of a text -/

/-- A text that has a first character, which is neither blank nor a bracket. -/
def StartsWithWord (cs : List Char) : Prop :=
  ∃ c rest, cs = c :: rest ∧ Text.isBlank c = false ∧ c ≠ '['

lemma StartsWithWord.append {cs : List Char} (h : StartsWithWord cs) (rest : List Char) :
    StartsWithWord (cs ++ rest) := by
  obtain ⟨c, more, rfl, hblank, hbracket⟩ := h
  exact ⟨c, more ++ rest, rfl, hblank, hbracket⟩

lemma StartsWithWord.dropWhile_eq {cs : List Char} (h : StartsWithWord cs) :
    cs.dropWhile Text.isBlank = cs := by
  obtain ⟨c, rest, rfl, hblank, -⟩ := h
  exact List.dropWhile_cons_of_neg (by simp [hblank])

lemma startsWithWord_of_isName {name : List Char} (h : IsName name) : StartsWithWord name := by
  obtain ⟨c, rest, rfl, hstart, -⟩ := h
  refine ⟨c, rest, rfl, isBlank_of_isNameRest (isNameRest_of_isNameStart hstart), ?_⟩
  rintro rfl
  cases hstart

lemma isName_of_isArrayWord {word : List Char} (h : IsArrayWord word) : IsName word := by
  have hletters : ∀ c ∈ arrayWord, isNameStart c = true := List.all_eq_true.mp (by decide)
  have hletter : ∀ c ∈ word, isNameStart c = true := by
    intro c hc
    rw [← isNameStart_toLower]
    exact hletters _ (h ▸ List.mem_map_of_mem hc)
  cases word with
  | nil => cases h
  | cons c rest =>
      exact ⟨c, rest, rfl, hletter c (by simp), fun d hd =>
        isNameRest_of_isNameStart (hletter d (List.mem_cons_of_mem c hd))⟩

lemma Form.IsWritten.startsWithWord {form : Form} {text : List Char} (h : form.IsWritten text) :
    StartsWithWord text := by
  cases h with
  | named tags hname hword => exact (startsWithWord_of_isName hname).append _
  | bareArray hword => exact startsWithWord_of_isName (isName_of_isArrayWord hword)
  | arrayOfAnything key tags hword =>
      exact (startsWithWord_of_isName (isName_of_isArrayWord hword)).append _
  | arrayOf key tags hword hblanks helement hline =>
      exact (startsWithWord_of_isName (isName_of_isArrayWord hword)).append _

/-! ### Reading a spelling -/

lemma writeTags_append (tags more : List Keys) :
    writeTags (tags ++ more) = writeTags tags ++ writeTags more :=
  List.flatMap_append

/-- Tags that are inserted come before those that are there. -/
lemma insertTag_modern {name : List Char} (hname : IsName name) (tags inner : List Keys) :
    insertTag (name ++ writeTags inner) (writeTags tags) = name ++ writeTags (tags ++ inner) := by
  rw [insertTag, splitTags_modern hname, writeTags_append]
  exact List.append_assoc _ _ _

lemma afterArray?_append {word : List Char} (h : IsArrayWord word) (rest : List Char) :
    afterArray? (word ++ rest) = some rest := by
  rw [afterArray?, ← h.length_eq, List.take_left, List.drop_left, h,
    if_pos (beq_self_eq_true _)]

/-- Tags end where blanks or a word start. -/
lemma readTags_tags_append {tags : List Keys} {rest : List Char}
    (h : ∀ more, rest ≠ '[' :: more) :
    readTags (writeTags tags ++ rest) = (tags, rest) := by
  have hnone : (readTags rest).1 = [] := by
    by_contra hsome
    obtain ⟨more, hmore⟩ := eq_cons_of_readTags hsome
    exact h more hmore
  have hrest := writeTags_readTags rest
  rw [hnone] at hrest
  rw [readTags_writeTags_append, hnone, List.append_nil]
  exact congrArg (tags, ·) hrest

lemma not_bracket_of_blanks {blanks : List Char} (h : ∀ c ∈ blanks, Text.isBlank c = true)
    {text : List Char} (htext : text = [] ∨ StartsWithWord text) (more : List Char) :
    blanks ++ text ≠ '[' :: more := by
  intro heq
  cases blanks with
  | cons c blanks =>
      obtain rfl : c = '[' := (List.cons.inj heq).1
      exact absurd (h '[' (by simp)) (by decide)
  | nil =>
      rcases htext with rfl | ⟨c, rest, rfl, -, hne⟩
      · cases heq
      · exact hne (List.cons.inj heq).1

section OlderForm

variable {word blanks text : List Char} (hword : IsArrayWord word)
  (hblanks : ∀ c ∈ blanks, Text.isBlank c = true) (depth : Nat) (key : Keys) (tags : List Keys)
include hword hblanks

/-- The tags of the older form, and the text behind them without its blanks. -/
lemma readTags_arrayWord (htext : text = [] ∨ StartsWithWord text) :
    ∃ rest, afterArray? (word ++ (writeTags (key :: tags) ++ (blanks ++ text))) = some ('[' :: rest) ∧
      readTags ('[' :: rest) = (key :: tags, blanks ++ text) ∧
      (blanks ++ text).dropWhile Text.isBlank = text := by
  obtain ⟨rest, hrest⟩ := eq_cons_of_writeTags key tags
  refine ⟨rest ++ (blanks ++ text), ?_, ?_, ?_⟩
  · rw [afterArray?_append hword, hrest, List.cons_append]
  · rw [← List.cons_append, ← hrest]
    exact readTags_tags_append (not_bracket_of_blanks hblanks htext)
  · rw [List.dropWhile_append_of_pos hblanks]
    rcases htext with rfl | htext
    · rfl
    · exact htext.dropWhile_eq

lemma modernWithin_anything :
    modernWithin (depth + 1) (word ++ (writeTags (key :: tags) ++ blanks)) =
      some ("mixed".toList ++ writeTags (key :: tags)) := by
  have hempty : ([] : List Char) = [] ∨ StartsWithWord [] := .inl rfl
  obtain ⟨rest, hafter, hread, hdrop⟩ := readTags_arrayWord hword hblanks key tags hempty
  rw [List.append_nil] at hafter hread hdrop
  rw [modernWithin, hafter]
  dsimp only
  rw [hread]
  dsimp only
  rw [hdrop]

lemma modernWithin_element (htext : StartsWithWord text) (hline : '\n' ∉ text) :
    modernWithin (depth + 1) (word ++ (writeTags (key :: tags) ++ (blanks ++ text))) =
      some (insertTag ((modernWithin depth text).getD text) (writeTags (key :: tags))) := by
  obtain ⟨rest, hafter, hread, hdrop⟩ := readTags_arrayWord hword hblanks key tags (.inr htext)
  have hcontains : text.contains '\n' = false := by simpa using hline
  obtain ⟨c, more, rfl, -⟩ := htext
  rw [modernWithin, hafter]
  dsimp only
  rw [hread]
  dsimp only
  rw [hdrop]
  dsimp only
  rw [hcontains]
  rfl

end OlderForm

lemma isName_mixed : IsName "mixed".toList :=
  ⟨'m', "ixed".toList, rfl, by decide, List.all_eq_true.mp (by decide)⟩

/-- The text of a form is read as the name and tags that the form comes down to. -/
lemma Form.parse?_of_isWritten {form : Form} {text : List Char} (h : form.IsWritten text)
    {depth : Nat} (hdepth : text.length < depth) :
    parse? ((modernWithin depth text).getD text) = some form.flat := by
  induction h generalizing depth with
  | @named name tags hname hword =>
      cases hmodern : modernWithin depth (name ++ writeTags tags) with
      | none => exact parse?_eq_some_iff.mpr ⟨hname, rfl⟩
      | some text =>
          have hbase := isArrayWord_of_modernWithin hmodern
          rw [splitTags_modern hname] at hbase
          exact absurd hbase hword
  | @bareArray word hword =>
      obtain ⟨depth, rfl⟩ := Nat.exists_eq_succ_of_ne_zero (Nat.ne_zero_of_lt hdepth)
      have hafter := afterArray?_append hword []
      rw [List.append_nil] at hafter
      rw [modernWithin, hafter]
      rfl
  | @arrayOfAnything word key tags hword =>
      obtain ⟨depth, rfl⟩ := Nat.exists_eq_succ_of_ne_zero (Nat.ne_zero_of_lt hdepth)
      have hmodern := modernWithin_anything hword (List.forall_mem_nil _) depth key tags
      rw [List.append_nil] at hmodern
      rw [hmodern]
      exact parse?_eq_some_iff.mpr ⟨isName_mixed, rfl⟩
  | @arrayOf word blanks text element key tags hword hblanks helement hline ih =>
      obtain ⟨depth, rfl⟩ := Nat.exists_eq_succ_of_ne_zero (Nat.ne_zero_of_lt hdepth)
      have hshorter : text.length < depth := by
        have hpos := List.length_pos_of_ne_nil (show word ≠ [] by rintro rfl; cases hword)
        simp only [List.length_append] at hdepth
        omega
      obtain ⟨hname, hinner⟩ := parse?_eq_some_iff.mp (ih hshorter)
      rw [modernWithin_element hword hblanks depth key tags helement.startsWithWord hline, hinner,
        Option.getD_some, insertTag_modern hname]
      exact parse?_eq_some_iff.mpr ⟨hname, rfl⟩

/-! ### Finding a spelling -/

/-- A text of the older form is a bare word, or has tags behind it and maybe an element. -/
lemma modernWithin_inv {depth : Nat} {cs modern : List Char}
    (h : modernWithin (depth + 1) cs = some modern) :
    IsArrayWord cs ∧ modern = "mixed[]".toList ∨
      ∃ word key tags blanks text, IsArrayWord word ∧ (∀ c ∈ blanks, Text.isBlank c = true) ∧
        cs = word ++ (writeTags (key :: tags) ++ (blanks ++ text)) ∧
        (text = [] ∧ modern = "mixed".toList ++ writeTags (key :: tags) ∨
          text ≠ [] ∧ '\n' ∉ text ∧
            modern = insertTag ((modernWithin depth text).getD text) (writeTags (key :: tags))) := by
  rw [modernWithin] at h
  split at h
  · cases h
  case h_2 hafter =>
    obtain ⟨word, hword, rfl⟩ := afterArray?_eq_some hafter
    rw [List.append_nil]
    exact .inl ⟨hword, (Option.some.inj h).symm⟩
  case h_3 rest _ hafter =>
    obtain ⟨word, hword, rfl⟩ := afterArray?_eq_some hafter
    split at h
    · cases h
    case h_2 tags after hne hread =>
      obtain ⟨key, tags, rfl⟩ := List.exists_cons_of_ne_nil hne
      have hrest := writeTags_readTags rest
      rw [hread, ← List.takeWhile_append_dropWhile (p := Text.isBlank) (l := after)] at hrest
      refine .inr ⟨word, key, tags, after.takeWhile Text.isBlank, after.dropWhile Text.isBlank, hword,
        fun c hc => List.mem_takeWhile_imp hc, by rw [← hrest], ?_⟩
      split at h
      case h_1 hdrop => exact .inl ⟨hdrop, (Option.some.inj h).symm⟩
      case h_2 hsome =>
        split at h
        · cases h
        case isFalse hline =>
          exact .inr ⟨hsome, by simpa using hline, (Option.some.inj h).symm⟩

/-- No blank stands at the end of the text. -/
def EndsTight (cs : List Char) : Prop :=
  ∀ c ∈ cs.getLast?, Text.isBlank c = false

lemma EndsTight.of_append {cs cs' : List Char} (h : EndsTight (cs ++ cs')) : EndsTight cs' := by
  intro c hc
  refine h c ?_
  rw [List.getLast?_append, Option.mem_def.mp hc]
  rfl

lemma EndsTight.eq_nil {blanks : List Char} (h : EndsTight blanks)
    (hblanks : ∀ c ∈ blanks, Text.isBlank c = true) : blanks = [] := by
  by_contra hne
  have hlast := h (blanks.getLast hne) (List.getLast?_eq_some_getLast hne)
  rw [hblanks _ (List.getLast_mem hne)] at hlast
  cases hlast

lemma endsTight_trimBlanks {cs : List Char} : EndsTight (Text.trimBlanks cs) := by
  intro c hc
  have hfirst := List.head?_dropWhile_not Text.isBlank (cs.dropWhile Text.isBlank).reverse
  rw [Text.trimBlanks, Text.trimRight, List.getLast?_reverse] at hc
  rw [Option.mem_def.mp hc] at hfirst
  exact hfirst

/-- A text without a blank at its end that is read as a name and tags spells a form that comes down
to these. -/
lemma exists_isWritten {depth : Nat} {cs name : List Char} {tags : List Keys}
    (hend : EndsTight cs) (hdepth : cs.length < depth)
    (h : parse? ((modernWithin depth cs).getD cs) = some (name, tags)) :
    ∃ form : Form, form.IsWritten cs ∧ form.flat = (name, tags) := by
  induction depth generalizing cs name tags with
  | zero => omega
  | succ depth ih =>
      cases hmodern : modernWithin (depth + 1) cs with
      | none =>
          rw [hmodern, Option.getD_none] at h
          obtain ⟨hname, rfl⟩ := parse?_eq_some_iff.mp h
          refine ⟨.named name tags, .named tags hname fun hword => ?_, rfl⟩
          exact modernWithin_arrayWord hword depth tags hmodern
      | some modern =>
          rw [hmodern, Option.getD_some] at h
          obtain ⟨hword, rfl⟩ | ⟨word, key, tags', blanks, text, hword, hblanks, rfl, htext⟩ :=
            modernWithin_inv hmodern
          · exact ⟨.bareArray, .bareArray hword, Option.some.inj h⟩
          · obtain ⟨rfl, rfl⟩ | ⟨hne, hline, rfl⟩ := htext
            · obtain rfl : blanks = [] := by
                rw [List.append_nil] at hend
                exact hend.of_append.of_append.eq_nil hblanks
              have hparse : parse? ("mixed".toList ++ writeTags (key :: tags')) =
                  some ("mixed".toList, key :: tags') := parse?_eq_some_iff.mpr ⟨isName_mixed, rfl⟩
              refine ⟨.arrayOfAnything key tags', ?_, Option.some.inj (hparse.symm.trans h)⟩
              rw [List.append_nil, List.append_nil]
              exact .arrayOfAnything key tags' hword
            · -- the element has the same name, and is shorter
              obtain ⟨hname, hmodern'⟩ := parse?_eq_some_iff.mp h
              obtain ⟨inner, hinner⟩ := modern_of_insertTag hname hmodern'
              have hshorter : text.length < depth := by
                have hpos := List.length_pos_of_ne_nil (show word ≠ [] by rintro rfl; cases hword)
                simp only [List.length_append] at hdepth
                omega
              obtain ⟨element, helement, hflat⟩ :=
                ih hend.of_append.of_append.of_append hshorter (parse?_eq_some_iff.mpr ⟨hname, hinner⟩)
              refine ⟨.arrayOf key tags' element, .arrayOf key tags' hword hblanks helement hline, ?_⟩
              have hparse : parse? (name ++ writeTags (key :: tags' ++ inner)) = some (name, tags) := by
                rw [← h, hinner, insertTag_modern hname]
              rw [parse?_eq_some_iff.mpr ⟨hname, rfl⟩] at hparse
              rw [Form.flat, hflat]
              exact Option.some.inj hparse

/-- A descriptor means a type exactly if its text spells a form that does. -/
lemma meaning_eq_ok_iff (t : ClassTable) (descriptor : String) (type : Ty) :
    meaning t descriptor = .ok type ↔
      ∃ form : Form, form.IsWritten (Text.trimBlanks descriptor.toList) ∧
        form.type? t = some type := by
  have hread : ∀ form : Form, parse? (modernText descriptor) = some form.flat →
      (meaning t descriptor = .ok type ↔ form.type? t = some type) := by
    intro form hparse
    rw [meaning_of_parse?_some t hparse, form.type?_eq]
    cases named? t (String.ofList form.flat.1) with
    | none => simp
    | some base => simp
  constructor
  · intro h
    cases hparse : parse? (modernText descriptor) with
    | none => cases (meaning_of_parse?_none t hparse).symm.trans h
    | some parsed =>
        obtain ⟨form, hwritten, hflat⟩ :=
          exists_isWritten endsTight_trimBlanks (Nat.lt_succ_self _) hparse
        exact ⟨form, hwritten, (hread form (hflat ▸ hparse)).mp h⟩
  · rintro ⟨form, hwritten, htype⟩
    exact (hread form (form.parse?_of_isWritten hwritten (Nat.lt_succ_self _))).mpr htype

end Descriptor

/-- **Compiling accepts exactly the language of descriptors and computes their meaning.** For every
text and every table of classes, compiling with an empty cache gives a type if and only if the text
without the blanks around it spells a form that means this type. -/
theorem compile_eq_ok_iff (t : ClassTable) (descriptor : String) (type : Ty) :
    (TypeCache.compile {} t descriptor).1.map (·.type) = .ok type ↔
      ∃ form : Descriptor.Form, form.IsWritten (Text.trimBlanks descriptor.toList) ∧
        form.type? t = some type := by
  rw [(TypeCache.compile_sound (TypeCache.sound_empty t) descriptor).1]
  exact Descriptor.meaning_eq_ok_iff t descriptor type

-- the older form nests, and its tags come out before those of the element
example : (TypeCache.compile {} {} " array[int] Array[string]\tINT[] ").1.map (·.type) =
    .ok (.container .int (.container .string (.container .either .int))) := by
  decide +kernel

end ScriptCheck
