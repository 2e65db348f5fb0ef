import ScriptCheck.Proofs.Coherence.Stmt
import ScriptCheck.Proofs.Expression.Spells
import ScriptCheck.Proofs.Token.Symbols

/-!
Descriptors in annotations.

The syntax of descriptors is known in three places: the scanner cuts a text into tokens, the reader of
annotations puts a descriptor together from tokens, and the compiler reads the text as a whole. They
agree on every text that spells a form and whose name is one that the scanner knows
(`annotation_agrees_with_compiler`): the tokens are read to the end, what is put together is the text
without its blanks, and this means what the text means.

* `IsReadAs` gives the symbols of a text: words, tags behind them, and behind the tags of the older
  form the symbols of the element. Blanks leave no symbol.
* `IsReadAs.readsSymbols`: the scanner finds these symbols.
* `IsReadAs.spells`: the reader puts the text together from them, without the blanks.
* `Form.IsWritten.withoutBlanks`: without the blanks the text spells the same form.
-/

namespace ScriptCheck

/-! ### Texts without blanks -/

namespace Text

/-- The characters that are no blanks. -/
def withoutBlanks (cs : List Char) : List Char :=
  cs.filter fun c => !isBlank c

lemma withoutBlanks_append (cs cs' : List Char) :
    withoutBlanks (cs ++ cs') = withoutBlanks cs ++ withoutBlanks cs' :=
  List.filter_append cs cs'

lemma withoutBlanks_eq_nil {cs : List Char} (h : ∀ c ∈ cs, isBlank c = true) :
    withoutBlanks cs = [] :=
  List.filter_eq_nil_iff.mpr fun c hc => by simp [h c hc]

lemma withoutBlanks_eq_self {cs : List Char} (h : ∀ c ∈ cs, isBlank c = false) :
    withoutBlanks cs = cs :=
  List.filter_eq_self.mpr fun c hc => by simp [h c hc]

lemma isBlank_of_mem_withoutBlanks {cs : List Char} {c : Char} (h : c ∈ withoutBlanks cs) :
    isBlank c = false := by
  simpa using (List.mem_filter.mp h).2

/-- A text is its trimmed part with blanks around it. -/
lemma exists_eq_trimBlanks (cs : List Char) :
    ∃ before after, cs = before ++ (trimBlanks cs ++ after) ∧ (∀ c ∈ before, isBlank c = true) ∧
      ∀ c ∈ after, isBlank c = true := by
  have hright : ∀ l : List Char, ∃ after, l = trimRight l ++ after ∧ ∀ c ∈ after, isBlank c = true := by
    intro l
    refine ⟨(l.reverse.takeWhile isBlank).reverse, ?_, fun c hc => ?_⟩
    · rw [trimRight, ← List.reverse_append, List.takeWhile_append_dropWhile, List.reverse_reverse]
    · exact List.mem_takeWhile_imp (List.mem_reverse.mp hc)
  obtain ⟨after, hafter, hblank⟩ := hright (cs.dropWhile isBlank)
  refine ⟨cs.takeWhile isBlank, after, ?_, fun c hc => List.mem_takeWhile_imp hc, hblank⟩
  rw [trimBlanks, ← hafter, List.takeWhile_append_dropWhile]

lemma withoutBlanks_trimBlanks (cs : List Char) :
    withoutBlanks (trimBlanks cs) = withoutBlanks cs := by
  obtain ⟨before, after, hcs, hbefore, hafter⟩ := exists_eq_trimBlanks cs
  conv_rhs => rw [hcs]
  rw [withoutBlanks_append, withoutBlanks_append, withoutBlanks_eq_nil hbefore,
    withoutBlanks_eq_nil hafter, List.nil_append, List.append_nil]

end Text

namespace Descriptor

/-! ### Symbols of descriptors -/

/-- The symbols of an index tag. -/
def tagSymbols : Keys → List Symbol
  | .int => [.fixed .openBracket, .word "int".toList, .fixed .closeBracket]
  | .string => [.fixed .openBracket, .word "string".toList, .fixed .closeBracket]
  | .either => [.fixed .openBracket, .fixed .closeBracket]

/-- The symbols of a text: those of a word that a type can start with and of its tags, and behind
tags of the older form those of the element. -/
inductive IsReadAs : (text : List Char) → List Symbol → Prop
  | tagged {word : List Char} (tags : List Keys) : Lexeme.IsName word →
      Check.startsType (Symbol.word word).kind = true →
      IsReadAs (word ++ writeTags tags) (.word word :: tags.flatMap tagSymbols)
  | followed {word blanks text : List Char} {xs : List Symbol} (key : Keys) (tags : List Keys) :
      IsArrayWord word → (∀ c ∈ blanks, Text.isBlank c = true) → IsReadAs text xs →
      IsReadAs (word ++ (writeTags (key :: tags) ++ (blanks ++ text)))
        (.word word :: ((key :: tags).flatMap tagSymbols ++ xs))

/-! ### Words -/

/-- The word of the older form is made of letters, so the scanner knows it. -/
lemma isName_of_arrayWord {word : List Char} (h : IsArrayWord word) : Lexeme.IsName word := by
  have hword : ∀ c ∈ arrayWord, Lexeme.isNameStart c = true := List.all_eq_true.mp (by decide)
  have hletter : ∀ c ∈ word, Lexeme.isNameStart c = true := by
    intro c hc
    have hlower : c.toLower ∈ arrayWord := h ▸ List.mem_map_of_mem hc
    rcases toLower_cases c with hsame | ⟨hstart, -⟩
    · exact hword c (hsame ▸ hlower)
    · rcases Bool.or_eq_true_iff.mp hstart with hletter | hseparator
      · exact hletter
      · obtain rfl := beq_iff_eq.mp hseparator
        exact absurd hlower (by decide)
  cases word with
  | nil => cases h
  | cons c rest =>
      obtain ⟨hc, hrest⟩ := List.forall_mem_cons.mp hletter
      exact Lexeme.isName_of_forall hc fun d hd => Bool.or_eq_true_iff.mpr (.inl (hrest d hd))

lemma kind_arrayWord {word : List Char} (h : IsArrayWord word) :
    (Symbol.word word).kind = .kwArray := by
  have hlower : Text.lowerAscii (String.ofList word) = "array" := by
    rw [← isArrayWord_iff, String.toList_ofList]
    exact h
  rw [Symbol.word, Lexeme.nameKind, hlower]
  rfl

lemma startsType_arrayWord {word : List Char} (h : IsArrayWord word) :
    Check.startsType (Symbol.word word).kind = true := by
  rw [kind_arrayWord h]
  rfl

/-- A word that is not reserved, or only for null or arrays. -/
lemma startsType_word {word : List Char}
    (h : Text.lowerAscii (String.ofList word) ∈ Kind.reservedWords.map Prod.fst →
      Text.lowerAscii (String.ofList word) ∈ ["null", "array"]) :
    Check.startsType (Symbol.word word).kind = true := by
  rw [Symbol.word, Lexeme.nameKind]
  cases hfound : Kind.reservedWords.lookup (Text.lowerAscii (String.ofList word)) with
  | none => rfl
  | some kind =>
      have hmem : Text.lowerAscii (String.ofList word) ∈ Kind.reservedWords.map Prod.fst := by
        obtain ⟨before, after, heq, -⟩ := List.lookup_eq_some_iff.mp hfound
        rw [heq]
        simp
      have hwords : ∀ name ∈ ["null", "array"],
          Check.startsType ((Kind.reservedWords.lookup name).getD .name) = true := by decide
      rw [← hfound]
      exact hwords _ (h hmem)

/-! ### Scanning -/

lemma readsSymbols_tag {rest : List Char} {xs : List Symbol} (key : Keys)
    (h : ReadsSymbols rest xs) :
    ReadsSymbols (key.tag.toList ++ rest) (tagSymbols key ++ xs) := by
  have hopen : ∀ {cs ys}, ReadsSymbols cs ys →
      ReadsSymbols ('[' :: cs) (.fixed .openBracket :: ys) :=
    fun h => h.token (List.cons_ne_nil '[' []) rfl
  have hclose : ReadsSymbols (']' :: rest) (.fixed .closeBracket :: xs) :=
    h.token (List.cons_ne_nil ']' []) rfl
  have hnamed : ∀ {c tail}, Lexeme.isNameStart c = true → tail.all Lexeme.isNameRest = true →
      key.tag.toList = '[' :: (c :: tail ++ [']']) → ReadsSymbols (key.tag.toList ++ rest)
        (.fixed .openBracket :: .word (c :: tail) :: .fixed .closeBracket :: xs) := by
    intro c tail hc htail htag
    have hword : Lexeme.IsName (c :: tail) :=
      Lexeme.isName_of_forall hc (List.all_eq_true.mp htail)
    have hends : Lexeme.NameEnds (']' :: rest) := by
      rintro d ⟨⟩
      decide
    rw [htag, List.cons_append, List.append_assoc]
    exact hopen (hclose.name hword hends)
  cases key with
  | int => exact hnamed (by decide) (by decide) rfl
  | string => exact hnamed (by decide) (by decide) rfl
  | either => exact hopen hclose

lemma readsSymbols_tags {rest : List Char} {xs : List Symbol} (tags : List Keys)
    (h : ReadsSymbols rest xs) :
    ReadsSymbols (writeTags tags ++ rest) (tags.flatMap tagSymbols ++ xs) := by
  induction tags with
  | nil => exact h
  | cons key tags ih =>
      rw [writeTags_cons, List.append_assoc, List.flatMap_cons, List.append_assoc]
      exact readsSymbols_tag key ih

/-- A name ends where tags start. -/
lemma nameEnds_tags (key : Keys) (tags : List Keys) (rest : List Char) :
    Lexeme.NameEnds (writeTags (key :: tags) ++ rest) := by
  obtain ⟨more, hmore⟩ := eq_cons_of_writeTags key tags
  rw [hmore]
  rintro c ⟨⟩
  decide

/-- What is read starts with a word that a type can start with. -/
lemma IsReadAs.exists_word {text : List Char} {xs : List Symbol} (h : IsReadAs text xs) :
    ∃ word after ys, Lexeme.IsName word ∧ Check.startsType (Symbol.word word).kind = true ∧
      text = word ++ after ∧ xs = .word word :: ys := by
  cases h with
  | tagged tags hname hstart => exact ⟨_, _, _, hname, hstart, rfl, rfl⟩
  | followed key tags hword hblanks htext =>
      exact ⟨_, _, _, isName_of_arrayWord hword, startsType_arrayWord hword, rfl, rfl⟩

lemma IsReadAs.isBlank_head {text : List Char} {xs : List Symbol} (h : IsReadAs text xs)
    (rest : List Char) : ∀ c ∈ (text ++ rest).head?, Text.isBlank c = false := by
  obtain ⟨word, after, -, hname, -, rfl, -⟩ := h.exists_word
  obtain ⟨c, tail, rfl⟩ : ∃ c tail, word = c :: tail := by cases hname <;> exact ⟨_, _, rfl⟩
  rintro _ ⟨⟩
  exact isBlank_of_isNameRest (hname.isNameRest c List.mem_cons_self)

/-- The scanner finds the symbols of the text. -/
lemma IsReadAs.readsSymbols {text rest : List Char} {ys xs : List Symbol} (h : IsReadAs text ys)
    (hends : Lexeme.NameEnds rest) (hrest : ReadsSymbols rest xs) :
    ReadsSymbols (text ++ rest) (ys ++ xs) := by
  induction h with
  | tagged tags hname hstart =>
      rw [List.append_assoc]
      refine (readsSymbols_tags tags hrest).name hname ?_
      cases tags with
      | nil => exact hends
      | cons key tags => exact nameEnds_tags key tags rest
  | @followed word blanks text ys key tags hword hblanks htext ih =>
      have helement := ih.blanks hblanks (htext.isBlank_head rest)
      have htagged := readsSymbols_tags (key :: tags) helement
      rw [List.append_assoc, List.append_assoc, List.append_assoc, List.cons_append,
        List.append_assoc]
      exact htagged.name (isName_of_arrayWord hword) (nameEnds_tags key tags _)

/-! ### Reading -/

/-- The kinds of tokens that end a descriptor. -/
def EndsDescriptor (kind : Kind) : Prop :=
  kind ≠ .openBracket ∧ Check.startsType kind = false

section Reader

open Check

variable {names : List String}

lemma length_le_tagSymbols (tags : List Keys) :
    tags.length ≤ (tags.flatMap tagSymbols).length := by
  induction tags with
  | nil => exact Nat.le_refl 0
  | cons key tags ih =>
      have hpos : 0 < (tagSymbols key).length := by cases key <;> exact Nat.succ_pos _
      rw [List.flatMap_cons, List.length_append, List.length_cons]
      omega

/-- The loop over the tags adds them to the text, up to a token that opens no other tag. -/
lemma spells_descriptorTags {fuel : Nat} (tags : List Keys) (text : List Char)
    (hfuel : tags.length < fuel) :
    Spells names (descriptorTags fuel text) (tags.flatMap tagSymbols) (· ≠ .openBracket)
      (· = text ++ writeTags tags) := by
  induction tags generalizing fuel text with
  | nil =>
      obtain ⟨fuel, rfl⟩ := Nat.exists_eq_succ_of_ne_zero (Nat.ne_zero_of_lt hfuel)
      rw [descriptorTags]
      refine .kind (F := (· ≠ .openBracket)) (fun _ h => h) fun kind hkind => ?_
      rw [if_neg (by simpa using hkind)]
      exact .pure (List.append_nil text).symm
  | cons key tags ih =>
      obtain ⟨fuel, rfl⟩ := Nat.exists_eq_succ_of_ne_zero (Nat.ne_zero_of_lt hfuel)
      -- what is done behind the key
      have hclose : ∀ chars, key.tag.toList = '[' :: (chars ++ [']']) →
          Spells names
            (do
              let _ ← require .closeBracket
              descriptorTags fuel (text ++ ['['] ++ chars ++ [']']))
            (.fixed .closeBracket :: tags.flatMap tagSymbols) (· ≠ .openBracket)
            (· = text ++ writeTags (key :: tags)) := by
        intro chars htag
        refine .require rfl (by decide) fun _ => ?_
        refine (ih (text ++ ['['] ++ chars ++ [']']) (Nat.lt_of_succ_lt_succ hfuel)).mono
          (fun _ h => h) ?_
        rintro _ rfl
        rw [writeTags_cons, htag]
        simp
      have hnamed : ∀ {word : List Char}, (Symbol.word word).kind = .name →
          key.tag.toList = '[' :: (word ++ [']']) →
          Spells names (descriptorTags (fuel + 1) text)
            (.fixed .openBracket :: .word word :: .fixed .closeBracket :: tags.flatMap tagSymbols)
            (· ≠ .openBracket) (· = text ++ writeTags (key :: tags)) := by
        intro word hkind htag
        rw [descriptorTags]
        refine .first (.advance (by decide) fun _ _ => .first ?_)
        rw [hkind]
        refine .advance (by rw [hkind]; decide) fun token htoken => ?_
        have hvalue : token.value = String.ofList word := congrArg Symbol.value htoken
        rw [pure_bind, hvalue, String.toList_ofList]
        exact hclose word htag
      cases key with
      | int => exact hnamed rfl rfl
      | string => exact hnamed rfl rfl
      | either =>
          rw [descriptorTags]
          exact .first (.advance (by decide) fun _ _ => .first (hclose [] rfl))

/-- A word and its tags are read, and what is done behind them. -/
lemma spells_descriptorWithin {fuel : Nat} {word : List Char} {tags : List Keys}
    {ys : List Symbol} {result : List Char → Prop}
    (hstart : startsType (Symbol.word word).kind = true)
    (hys : Leads (· ≠ .openBracket) EndsDescriptor ys)
    (hrest : Spells names
      (do
        let text := word ++ writeTags tags
        if (Symbol.word word).kind == .kwArray && text.length > "array".length &&
            startsType (← kind) then
          let element ← descriptorWithin fuel
          return text ++ element
        else return text) ys EndsDescriptor result) :
    Spells names (descriptorWithin (fuel + 1)) (.word word :: (tags.flatMap tagSymbols ++ ys))
      EndsDescriptor result := by
  rw [descriptorWithin]
  refine .current fun base hbase => ?_
  have hkind : base.kind = (Symbol.word word).kind := congrArg Symbol.kind hbase
  have hvalue : base.value.toList = word := by
    rw [show base.value = String.ofList word from congrArg Symbol.value hbase,
      String.toList_ofList]
  rw [hkind, hvalue, hstart]
  refine .advance (ne_eof_of_startsType hstart) fun _ _ => .bound fun bound hbound => ?_
  have htags : tags.length < bound + 1 := by
    have hlength := length_le_tagSymbols tags
    rw [List.length_append] at hbound
    omega
  refine (spells_descriptorTags tags word htags).bind hys ?_
  rintro _ rfl
  exact hrest

lemma withoutBlanks_modern {name : List Char} (hname : ∀ c ∈ name, isNameRest c = true)
    (tags : List Keys) : Text.withoutBlanks (name ++ writeTags tags) = name ++ writeTags tags :=
  Text.withoutBlanks_eq_self (not_isBlank_of_mem_modern hname tags)

/-- The reader puts the text together from its symbols, without the blanks. -/
lemma IsReadAs.spells {text : List Char} {xs : List Symbol} (h : IsReadAs text xs) {fuel : Nat}
    (hfuel : xs.length ≤ fuel) :
    Spells names (descriptorWithin (fuel + 1)) xs EndsDescriptor
      (· = Text.withoutBlanks text) := by
  induction h generalizing fuel with
  | @tagged word tags hname hstart =>
      rw [← List.append_nil (tags.flatMap tagSymbols), withoutBlanks_modern hname.isNameRest]
      refine spells_descriptorWithin hstart (fun kind hkind => hkind.1) ?_
      refine .kind (F := EndsDescriptor) (fun _ h => h) fun next hnext => ?_
      rw [hnext.2, Bool.and_false]
      exact .pure rfl
  | @followed word blanks text ys key tags hword hblanks htext ih =>
      obtain ⟨first, -, zs, -, hfirst, -, rfl⟩ := htext.exists_word
      rw [List.length_cons, List.length_append] at hfuel
      obtain ⟨fuel, rfl⟩ := Nat.exists_eq_succ_of_ne_zero (Nat.ne_zero_of_lt hfuel)
      have hname := (isName_of_arrayWord hword).isNameRest
      have hlonger : (word ++ writeTags (key :: tags)).length > "array".length := by
        obtain ⟨more, hmore⟩ := eq_cons_of_writeTags key tags
        rw [hmore, List.length_append, hword.length_eq]
        exact Nat.lt_add_of_pos_right (Nat.succ_pos more.length)
      have hwhole : Text.withoutBlanks (word ++ (writeTags (key :: tags) ++ (blanks ++ text))) =
          word ++ writeTags (key :: tags) ++ Text.withoutBlanks text := by
        rw [← List.append_assoc, Text.withoutBlanks_append, withoutBlanks_modern hname,
          Text.withoutBlanks_append, Text.withoutBlanks_eq_nil hblanks, List.nil_append]
      refine spells_descriptorWithin (startsType_arrayWord hword) ?_ (.first ?_)
      · intro hbracket
        rw [hbracket] at hfirst
        cases hfirst
      · rw [hfirst, kind_arrayWord hword, hwhole, decide_eq_true hlonger]
        refine (ih (by omega)).bind_last (fun _ h => h) ?_
        rintro _ rfl
        exact .pure rfl

lemma IsReadAs.spells_descriptor {text : List Char} {xs : List Symbol} (h : IsReadAs text xs) :
    Spells names descriptor xs EndsDescriptor
      (· = String.ofList (Text.withoutBlanks text)) := by
  rw [descriptor]
  refine .bound fun fuel hfuel => (h.spells hfuel).bind_last (fun _ h => h) ?_
  rintro _ rfl
  exact .pure rfl

/-- The reader consumes the tokens of the text up to the end token, and changes nothing else. -/
lemma IsReadAs.descriptor_run {text : List Char} {words : List Token}
    (h : IsReadAs text (words.map Token.symbol)) (file : String) (last : Nat) (s : State) :
    let tokens := (words ++ [Token.ending last]).toArray
    descriptor { s with cursor := ⟨file, tokens, 0⟩ } =
      .ok (String.ofList (Text.withoutBlanks text))
        { s with cursor := ⟨file, tokens, words.length⟩ } := by
  intro tokens
  let start : Cursor := ⟨file, tokens, 0⟩
  have hsymbols : words.map Token.symbol <+: start.symbols := by
    rw [Cursor.symbols, Cursor.rest]
    simp [start, tokens]
  have hpast : start.past (words.map Token.symbol).length = ⟨file, tokens, words.length⟩ := by
    simp [start, Cursor.past]
  have hends : EndsDescriptor (start.past (words.map Token.symbol).length).kind := by
    have hlast : (⟨file, tokens, words.length⟩ : Cursor).current = .ending last := by
      simp [tokens, Cursor.current]
    rw [hpast, Cursor.kind, hlast]
    exact ⟨by rintro ⟨⟩, rfl⟩
  have hspells : Spells [] descriptor _ _ _ := h.spells_descriptor
  obtain ⟨_, types, hrun, rfl⟩ :=
    hspells { s with cursor := start } (List.forall_mem_nil _) hsymbols hends
  have htypes : types = s.types := by
    obtain ⟨c, log, hkept⟩ := spares_descriptor { s with cursor := start }
    rw [hrun] at hkept
    exact congrArg State.types hkept
  rw [hrun, htypes]
  exact congrArg (fun c => EStateM.Result.ok _ { s with cursor := c }) hpast

end Reader

/-! ### Blanks around a text -/

lemma nameEnds_of_blanks {gap : List Char} (h : ∀ c ∈ gap, Text.isBlank c = true) :
    Lexeme.NameEnds gap := by
  intro c hc
  have hblank := h c (List.mem_of_mem_head? hc)
  constructor
  · by_contra hrest
    have hno := isBlank_of_isNameRest (Lexeme.isNameRest_descriptor (Bool.eq_true_of_not_eq_false hrest))
    rw [hblank] at hno
    cases hno
  · rintro rfl
    exact absurd hblank (by decide)

/-- The scanner finds the symbols of a text with blanks around it. -/
lemma IsReadAs.readsSymbols_trimBlanks {cs : List Char} {xs : List Symbol}
    (h : IsReadAs (Text.trimBlanks cs) xs) : ReadsSymbols cs (xs ++ [.ending]) := by
  obtain ⟨before, after, hcs, hbefore, hafter⟩ := Text.exists_eq_trimBlanks cs
  have hend : ReadsSymbols (after ++ []) [.ending] :=
    ReadsSymbols.nil.blanks hafter (by rintro _ ⟨⟩)
  rw [List.append_nil] at hend
  rw [hcs]
  exact (h.readsSymbols (nameEnds_of_blanks hafter) hend).blanks hbefore (h.isBlank_head after)

/-! ### Forms -/

/-- A word that the scanner reads as one that a type can start with: a name, and if it is reserved,
then for null or arrays. -/
def IsTypeWord (name : List Char) : Prop :=
  Lexeme.IsName name ∧
    (Text.lowerAscii (String.ofList name) ∈ Kind.reservedWords.map Prod.fst →
      Text.lowerAscii (String.ofList name) ∈ ["null", "array"])

namespace Form

/-- The name in a form. -/
def name? : Form → Option (List Char)
  | named name _ => some name
  | bareArray => none
  | arrayOfAnything .. => none
  | arrayOf _ _ element => element.name?

/-- The type that the form means, or the name that has none. -/
def answer (t : ClassTable) (form : Form) : Except String Ty :=
  (form.type? t).elim (.error (String.ofList form.flat.1)) .ok

lemma IsWritten.exists_isReadAs {form : Form} {text : List Char} (h : form.IsWritten text)
    (hname : ∀ name ∈ form.name?, IsTypeWord name) : ∃ xs, IsReadAs text xs := by
  induction h with
  | named tags _ hword =>
      obtain ⟨hlexeme, hreserved⟩ := hname _ rfl
      exact ⟨_, .tagged tags hlexeme (startsType_word hreserved)⟩
  | @bareArray word hword =>
      have htagged := IsReadAs.tagged [] (isName_of_arrayWord hword) (startsType_arrayWord hword)
      rw [show word ++ writeTags [] = word from List.append_nil word] at htagged
      exact ⟨_, htagged⟩
  | arrayOfAnything key tags hword =>
      exact ⟨_, .tagged (key :: tags) (isName_of_arrayWord hword) (startsType_arrayWord hword)⟩
  | arrayOf key tags hword hblanks _ _ ih =>
      obtain ⟨xs, htext⟩ := ih hname
      exact ⟨_, .followed key tags hword hblanks htext⟩

/-- Without its blanks a text spells the same form. -/
lemma IsWritten.withoutBlanks {form : Form} {text : List Char} (h : form.IsWritten text) :
    form.IsWritten (Text.withoutBlanks text) := by
  induction h with
  | named tags hname hword =>
      rw [withoutBlanks_modern hname.isNameRest]
      exact .named tags hname hword
  | bareArray hword =>
      have hplain := (isName_of_isArrayWord hword).isNameRest
      rw [Text.withoutBlanks_eq_self fun c hc => isBlank_of_isNameRest (hplain c hc)]
      exact .bareArray hword
  | arrayOfAnything key tags hword =>
      rw [withoutBlanks_modern (isName_of_isArrayWord hword).isNameRest]
      exact .arrayOfAnything key tags hword
  | @arrayOf word blanks text element key tags hword hblanks _ hline ih =>
      have hplain := withoutBlanks_modern (isName_of_isArrayWord hword).isNameRest (key :: tags)
      have hline' : '\n' ∉ Text.withoutBlanks text := fun hmem => hline (List.mem_of_mem_filter hmem)
      rw [← List.append_assoc, Text.withoutBlanks_append, hplain, Text.withoutBlanks_append,
        Text.withoutBlanks_eq_nil hblanks, List.append_assoc]
      exact .arrayOf key tags hword (List.forall_mem_nil _) ih hline'

end Form

/-- A text that spells a form means the type of the form, or names a class that is not there. -/
lemma meaning_of_isWritten (t : ClassTable) {form : Form} {descriptor : String}
    (h : form.IsWritten (Text.trimBlanks descriptor.toList)) :
    meaning t descriptor = (form.answer t).mapError (.unknownClass descriptor) := by
  rw [meaning_of_parse?_some t (form.parse?_of_isWritten h (Nat.lt_succ_self _)), Form.answer,
    form.type?_eq]
  cases named? t (String.ofList form.flat.1) <;> rfl

end Descriptor

/-- **The reader of annotations and the compiler agree.** For every text that spells a form, of the
modern or the older syntax, with blanks around it and before elements, and whose name is one that the
scanner reads as a word that a type can start with:
* the text can be scanned;
* from its tokens the reader of annotations puts together the text without its blanks, consumes them
  up to the end token, and changes nothing else, in whatever state it is started;
* compiling what it has put together gives the type that compiling the text gives, or fails for the
  class that compiling the text fails for, in every session. -/
theorem annotation_agrees_with_compiler (file descriptor : String) (form : Descriptor.Form)
    (hform : form.IsWritten (Text.trimBlanks descriptor.toList))
    (hname : ∀ name ∈ form.name?, Descriptor.IsTypeWord name) :
    let plain := String.ofList (Text.withoutBlanks descriptor.toList)
    ∃ words,
      let tokens := words ++ [.ending (Text.byteCount descriptor.toList)]
      scan file descriptor.toList = .ok tokens ∧
      (∀ s : State, Check.descriptor { s with cursor := ⟨file, tokens.toArray, 0⟩ } =
        .ok plain { s with cursor := ⟨file, tokens.toArray, words.length⟩ }) ∧
      ∀ (classes : ClassTable) (requests : List Request),
        let s := requests.foldl Session.serve { classes := classes }
        (s.cache.compile s.classes descriptor).1.map (·.type) =
            (form.answer s.classes).mapError (.unknownClass descriptor) ∧
          (s.cache.compile s.classes plain).1.map (·.type) =
            (form.answer s.classes).mapError (.unknownClass plain) := by
  intro plain
  obtain ⟨xs, hread⟩ := hform.exists_isReadAs hname
  obtain ⟨words, hscan, rfl⟩ := hread.readsSymbols_trimBlanks.exists_scan file
  have hplain : Text.withoutBlanks (Text.trimBlanks descriptor.toList) =
      Text.withoutBlanks descriptor.toList := Text.withoutBlanks_trimBlanks _
  refine ⟨words, hscan, fun s => ?_, fun classes requests => ?_⟩
  · have hrun := hread.descriptor_run file (Text.byteCount descriptor.toList) s
    rw [hplain] at hrun
    exact hrun
  · intro s
    have hsound : s.cache.Sound s.classes :=
      Session.sound_foldl (TypeCache.sound_empty classes) requests
    have hsame : form.IsWritten (Text.trimBlanks plain.toList) := by
      rw [String.toList_ofList, Descriptor.trimBlanks_eq_self fun c =>
        Text.isBlank_of_mem_withoutBlanks, ← hplain]
      exact hform.withoutBlanks
    rw [(TypeCache.compile_sound hsound descriptor).1, (TypeCache.compile_sound hsound plain).1]
    exact ⟨Descriptor.meaning_of_isWritten s.classes hform,
      Descriptor.meaning_of_isWritten s.classes hsame⟩

/-- The older form nests, blanks of several sorts stand around it and before its elements, the name
has a separator, and the words are written in different ways. -/
theorem annotation_agrees_with_compiler_nested :
    let descriptor := " array[int] Array[string]\tA\\B[] "
    let plain := "array[int]Array[string]A\\B[]"
    let form : Descriptor.Form :=
      .arrayOf .int [] (.arrayOf .string [] (.named "A\\B".toList [.either]))
    form.IsWritten (Text.trimBlanks descriptor.toList) ∧
      (∀ name ∈ form.name?, Descriptor.IsTypeWord name) ∧
      ∃ words,
        let tokens := words ++ [.ending 32]
        scan "note" descriptor.toList = .ok tokens ∧
        (∀ s : State, Check.descriptor { s with cursor := ⟨"note", tokens.toArray, 0⟩ } =
          .ok plain { s with cursor := ⟨"note", tokens.toArray, words.length⟩ }) ∧
        (TypeCache.compile {} {} descriptor).1.map (·.type) =
          .error (.unknownClass descriptor "A\\B") ∧
        (TypeCache.compile {} {} plain).1.map (·.type) =
          .error (.unknownClass plain "A\\B") := by
  intro descriptor plain form
  have htrim : Text.trimBlanks descriptor.toList = "array".toList ++ ("[int]".toList ++ ([' '] ++
      ("Array".toList ++ ("[string]".toList ++ (['\t'] ++ ("A\\B".toList ++ "[]".toList)))))) := by
    decide +kernel
  have hform : form.IsWritten (Text.trimBlanks descriptor.toList) := by
    rw [htrim]
    refine .arrayOf .int [] (by decide) (List.all_eq_true.mp (by decide)) (.arrayOf .string []
      (by decide) (List.all_eq_true.mp (by decide)) (.named [.either] ?_ (by decide)) (by decide))
      (by decide)
    exact ⟨'A', "\\B".toList, rfl, by decide, List.all_eq_true.mp (by decide)⟩
  have hname : ∀ name ∈ form.name?, Descriptor.IsTypeWord name := by
    rintro _ ⟨⟩
    exact ⟨.plain (by decide) (.separator (by decide) .nil), by decide⟩
  have hcount : Text.byteCount descriptor.toList = 32 := by decide +kernel
  have hplain : String.ofList (Text.withoutBlanks descriptor.toList) = plain := by decide +kernel
  have hagrees := annotation_agrees_with_compiler "note" descriptor form hform hname
  rw [hcount, hplain] at hagrees
  obtain ⟨words, hscan, hrun, hcompile⟩ := hagrees
  exact ⟨hform, hname, words, hscan, hrun, hcompile {} []⟩

end ScriptCheck
