import ScriptCheck.Descriptor.Cache
import ScriptCheck.Proofs.Descriptor.Modern

/-!
The cache of descriptors is transparent.

`Descriptor.meaning` gives the type of a descriptor without any cache: it brings the text into the
modern form, reads it, looks its name up and puts the containers around the name's type. A cache is
sound if every text is bound to its meaning (`TypeCache.Sound`).

* `compile_sound`: compiling a descriptor in a sound cache gives its meaning and leaves a sound
  cache. What is bound on the way are modern spellings of a name that is not the word `array`, and
  these mean what they are bound to (`meaning_modern`).
* `meaning_add`: a class that is added changes no meaning that a text already has.
* `compile_transparent`: so however compilations and additions of classes follow one another, the
  answers are those of an empty cache.
-/

namespace ScriptCheck

/-! ### Meanings -/

namespace Descriptor

/-- The modern spelling of a descriptor, if it is one at all. -/
def modernText (descriptor : String) : List Char :=
  let text := Text.trimBlanks descriptor.toList
  (modernForm? text).getD text

/-- The type of a descriptor, computed without a cache. -/
def meaning (t : ClassTable) (descriptor : String) : Except DescriptorFault Ty :=
  match parse? (modernText descriptor) with
  | none => .error (.malformed descriptor)
  | some (name, tags) =>
      match named? t (String.ofList name) with
      | none => .error (.unknownClass descriptor (String.ofList name))
      | some type => .ok (tags.foldr Ty.container type)

lemma meaning_of_parse?_none (t : ClassTable) {descriptor : String}
    (h : parse? (modernText descriptor) = none) :
    meaning t descriptor = .error (.malformed descriptor) := by
  rw [meaning, h]

lemma meaning_of_parse?_some (t : ClassTable) {descriptor : String} {name : List Char}
    {tags : List Keys} (h : parse? (modernText descriptor) = some (name, tags)) :
    meaning t descriptor = match named? t (String.ofList name) with
      | none => .error (.unknownClass descriptor (String.ofList name))
      | some type => .ok (tags.foldr Ty.container type) := by
  rw [meaning, h]

lemma toNat_of_isNameRest {c : Char} (h : isNameRest c = true) :
    0x30 ≤ c.toNat ∧ c.toNat ≤ 0x7A := by
  simp only [isNameRest, isNameStart, Bool.or_eq_true, Bool.and_eq_true, decide_eq_true_eq,
    beq_iff_eq, Char.le_def, UInt32.le_iff_toNat_le] at h
  rcases h with (((h | h) | rfl) | rfl) | h
  · exact ⟨le_trans (by decide) h.1, le_trans h.2 (by decide)⟩
  · exact ⟨le_trans (by decide) h.1, le_trans h.2 (by decide)⟩
  · decide
  · decide
  · exact ⟨le_trans (by decide) h.1, le_trans h.2 (by decide)⟩

lemma isBlank_of_isNameRest {c : Char} (h : isNameRest c = true) : Text.isBlank c = false := by
  have hrange := toNat_of_isNameRest h
  simp [Text.isBlank]
  omega

/-- A modern spelling has no blanks, nor has one whose name does not start like a name. -/
lemma not_isBlank_of_mem_modern {name : List Char} (hname : ∀ c ∈ name, isNameRest c = true)
    (tags : List Keys) : ∀ c ∈ name ++ writeTags tags, Text.isBlank c = false := by
  have htag : ∀ key : Keys, (key.tag.toList.all fun c => !Text.isBlank c) = true := by
    intro key
    cases key <;> decide
  intro c hc
  rcases List.mem_append.mp hc with hc | hc
  · exact isBlank_of_isNameRest (hname c hc)
  · obtain ⟨key, -, hkey⟩ := List.mem_flatMap.mp hc
    simpa using List.all_eq_true.mp (htag key) c hkey

lemma trimBlanks_eq_self {cs : List Char} (h : ∀ c ∈ cs, Text.isBlank c = false) :
    Text.trimBlanks cs = cs := by
  have hdrop : ∀ l : List Char, (∀ c ∈ l, Text.isBlank c = false) →
      l.dropWhile Text.isBlank = l := by
    intro l hl
    cases l with
    | nil => rfl
    | cons c l => rw [List.dropWhile_cons_of_neg (by simp [hl c (by simp)])]
  rw [Text.trimBlanks, Text.trimRight, hdrop cs h, hdrop cs.reverse (by simpa using h),
    List.reverse_reverse]

/-- A modern spelling is its own modern form, unless the name is the word `array`. -/
lemma modernText_modern {name : List Char} (hname : ∀ c ∈ name, isNameRest c = true)
    (harray : ¬ IsArrayWord name) (tags : List Keys) :
    modernText (String.ofList (name ++ writeTags tags)) = name ++ writeTags tags := by
  rw [modernText, String.toList_ofList,
    trimBlanks_eq_self (not_isBlank_of_mem_modern hname tags),
    modernForm?_modern (bracket_not_mem hname) harray, Option.getD_none]

/-- A modern spelling means the containers of its tags around the type of its name, unless the name
is the word `array`. -/
lemma meaning_modern (t : ClassTable) {name : List Char} (hname : IsName name)
    (harray : ¬ IsArrayWord name) (tags : List Keys) :
    meaning t (String.ofList (name ++ writeTags tags)) =
      match named? t (String.ofList name) with
      | none => .error (.unknownClass (String.ofList (name ++ writeTags tags)) (String.ofList name))
      | some type => .ok (tags.foldr Ty.container type) := by
  refine meaning_of_parse?_some t ?_
  rw [modernText_modern hname.isNameRest harray]
  exact parse?_eq_some_iff.mpr ⟨hname, rfl⟩

/-- A name that has a type keeps it when a class is added. -/
lemma named?_add {t : ClassTable} {name : String} {type : Ty} (decl : ClassDef)
    (h : named? t name = some type) : named? (t.add decl).2 name = some type := by
  rw [ClassTable.add]
  split
  · exact h
  · rw [named?] at h ⊢
    cases hbasic : basic? name with
    | some basic =>
        rw [hbasic] at h
        exact h
    | none =>
        rw [hbasic] at h
        obtain ⟨id, hid, rfl⟩ := Option.map_eq_some_iff.mp h
        have hlt : id < t.defs.length := (List.findIdx?_eq_some_iff_getElem.mp hid).1
        have hname : ClassTable.nameOf ⟨t.defs ++ [decl]⟩ id = t.nameOf id := by
          rw [ClassTable.nameOf, ClassTable.nameOf, ClassTable.get?, ClassTable.get?,
            List.getElem?_append_left hlt]
        have hfind : ClassTable.idOf? ⟨t.defs ++ [decl]⟩ name = some id := by
          rw [ClassTable.idOf?, List.findIdx?_append]
          rw [ClassTable.idOf?] at hid
          rw [hid]
          rfl
        rw [hfind, Option.map_some, hname]

/-- A text that has a meaning keeps it when a class is added. -/
lemma meaning_add {t : ClassTable} {descriptor : String} {type : Ty} (decl : ClassDef)
    (h : meaning t descriptor = .ok type) : meaning (t.add decl).2 descriptor = .ok type := by
  cases hparse : parse? (modernText descriptor) with
  | none => cases (meaning_of_parse?_none t hparse).symm.trans h
  | some parsed =>
      obtain ⟨name, tags⟩ := parsed
      rw [meaning_of_parse?_some _ hparse] at h ⊢
      cases hnamed : named? t (String.ofList name) with
      | none =>
          rw [hnamed] at h
          cases h
      | some base =>
          rw [hnamed] at h
          rw [named?_add decl hnamed]
          exact h

end Descriptor

/-! ### Sound caches -/

namespace TypeCache

open Descriptor

/-- Every text of the cache is bound to its meaning. -/
def Sound (cache : TypeCache) (t : ClassTable) : Prop :=
  ∀ descriptor made, cache.find? descriptor = some made → meaning t descriptor = .ok made.type

lemma sound_empty (t : ClassTable) : Sound {} t :=
  nofun

variable {cache : TypeCache} {t : ClassTable}

lemma Sound.add (h : cache.Sound t) (decl : ClassDef) : cache.Sound (t.add decl).2 :=
  fun descriptor made hfind => meaning_add decl (h descriptor made hfind)

/-- One more binding, of a text to its meaning. -/
lemma Sound.append (h : cache.Sound t) {descriptor : String} {made : Interned} (issued : Nat)
    (hmade : meaning t descriptor = .ok made.type) :
    Sound ⟨cache.entries ++ [(descriptor, made)], issued⟩ t := by
  intro other found hfind
  rw [find?, List.lookup_append] at hfind
  cases hold : cache.entries.lookup other with
  | some old =>
      rw [hold, Option.some_or] at hfind
      exact h other found (hold.trans hfind)
  | none =>
      rw [hold, Option.none_or, List.lookup_cons] at hfind
      split at hfind
      case h_1 heq =>
        rw [beq_iff_eq.mp heq, ← Option.some.inj hfind]
        exact hmade
      case h_2 => cases hfind

lemma Sound.bind (h : cache.Sound t) {descriptor : String} {made : Interned}
    (hmade : meaning t descriptor = .ok made.type) : (cache.bind descriptor made).Sound t := by
  rw [TypeCache.bind]
  split
  · exact h
  · exact h.append _ hmade

/-- The instance of a text has the text's meaning, whether it was there or is made. -/
lemma Sound.intern (h : cache.Sound t) {descriptor : String} {type : Ty} (element : Option Nat)
    (hmeaning : meaning t descriptor = .ok type) :
    (cache.intern descriptor type element).1.type = type ∧
      (cache.intern descriptor type element).2.Sound t := by
  rw [TypeCache.intern]
  split
  case h_1 made hfind =>
    have hmade := (h descriptor made hfind).symm.trans hmeaning
    exact ⟨Except.ok.inj hmade, h⟩
  case h_2 => exact ⟨rfl, h.append _ hmeaning⟩

/-- The containers around a name, from the innermost on. -/
lemma Sound.nest (h : cache.Sound t) {name : List Char} (hname : IsName name)
    (harray : ¬ IsArrayWord name) {base : Interned}
    (hbase : named? t (String.ofList name) = some base.type) (tags : List Keys) :
    (cache.nest name base tags).1.type = tags.foldr Ty.container base.type ∧
      (cache.nest name base tags).2.Sound t := by
  induction tags with
  | nil => exact ⟨rfl, h⟩
  | cons key tags ih =>
      obtain ⟨hinner, hsound⟩ := ih
      have hmeaning := meaning_modern t hname harray (key :: tags)
      rw [hbase] at hmeaning
      have hintern := hsound.intern (some (cache.nest name base tags).1.number) hmeaning
      rw [TypeCache.nest]
      dsimp only
      rw [hinner]
      exact hintern

/-- A name and its tags are compiled exactly if the name has a type. -/
lemma Sound.compileParsed (h : cache.Sound t) {name : List Char} (hname : IsName name)
    (harray : ¬ IsArrayWord name) (tags : List Keys) :
    match named? t (String.ofList name) with
    | none => cache.compileParsed t name tags = none
    | some type => ∃ made cache', cache.compileParsed t name tags = some (made, cache') ∧
        made.type = tags.foldr Ty.container type ∧ cache'.Sound t := by
  -- the name alone is a descriptor too, which the cache may know
  have hmeaning := meaning_modern t hname harray []
  rw [writeTags, List.flatMap_nil, List.append_nil] at hmeaning
  cases hnamed : named? t (String.ofList name) with
  | none =>
      rw [hnamed] at hmeaning
      rw [TypeCache.compileParsed]
      dsimp only
      cases hfind : cache.find? (String.ofList name) with
      | none => rw [hnamed]
      | some base => cases (h _ base hfind).symm.trans hmeaning
  | some type =>
      rw [hnamed] at hmeaning
      rw [TypeCache.compileParsed]
      dsimp only
      cases hfind : cache.find? (String.ofList name) with
      | some base =>
          have hbase : base.type = type :=
            Except.ok.inj ((h _ base hfind).symm.trans hmeaning)
          subst hbase
          exact ⟨_, _, rfl, h.nest hname harray hnamed tags⟩
      | none =>
          obtain ⟨hbase, hsound⟩ := h.intern none hmeaning
          rw [hnamed]
          have hnest := hsound.nest hname harray (hnamed.trans (congrArg some hbase.symm)) tags
          rw [List.foldr_nil] at hnest hbase
          rw [hbase] at hnest
          exact ⟨_, _, rfl, hnest⟩

/-- **Compiling in a sound cache gives the meaning of the descriptor and leaves a sound cache.** -/
lemma compile_sound (h : cache.Sound t) (descriptor : String) :
    (cache.compile t descriptor).1.map (·.type) = meaning t descriptor ∧
      (cache.compile t descriptor).2.Sound t := by
  rw [compile]
  split
  case h_1 made hfind => exact ⟨(h descriptor made hfind).symm, h⟩
  case h_2 =>
    dsimp only
    split
    case h_1 hparse => exact ⟨(meaning_of_parse?_none t hparse).symm, h⟩
    case h_2 name tags hparse =>
      have hname := (parse?_eq_some_iff.mp hparse).1
      have hparsed := h.compileParsed hname (not_isArrayWord_of_parse? hparse) tags
      have hmeaning := meaning_of_parse?_some t hparse
      cases hnamed : named? t (String.ofList name) with
      | none =>
          rw [hnamed] at hparsed hmeaning
          rw [hparsed]
          exact ⟨hmeaning.symm, h⟩
      | some type =>
          rw [hnamed] at hparsed hmeaning
          obtain ⟨made, cache', hcompile, htype, hsound⟩ := hparsed
          have hmade : meaning t descriptor = .ok made.type := by rw [hmeaning, htype]
          rw [hcompile]
          exact ⟨hmade.symm, hsound.bind hmade⟩

/-- A descriptor that cannot be compiled leaves the cache as it was. -/
lemma compile_snd_of_error {descriptor : String} {fault : DescriptorFault}
    (h : (cache.compile t descriptor).1 = .error fault) :
    (cache.compile t descriptor).2 = cache := by
  rw [compile] at h ⊢
  split
  · rfl
  · dsimp only at h ⊢
    split
    · rfl
    · split
      · rfl
      · simp_all

end TypeCache

/-! ### Sessions -/

/-- A request to compile a descriptor or to add a class. -/
inductive Request where
  | compile (descriptor : String)
  | addClass (decl : ClassDef)

/-- A cache and a class table that requests are made to. -/
structure Session where
  cache : TypeCache := {}
  classes : ClassTable

/-- What becomes of a session through a request. -/
def Session.serve (s : Session) : Request → Session
  | .compile descriptor => { s with cache := (s.cache.compile s.classes descriptor).2 }
  | .addClass decl => { s with classes := (s.classes.add decl).2 }

/-- A request keeps the cache sound. -/
lemma Session.sound_serve {s : Session} (h : s.cache.Sound s.classes) (request : Request) :
    (s.serve request).cache.Sound (s.serve request).classes := by
  cases request with
  | compile descriptor => exact (TypeCache.compile_sound h descriptor).2
  | addClass decl => exact h.add decl

lemma Session.sound_foldl {s : Session} (h : s.cache.Sound s.classes) (requests : List Request) :
    (requests.foldl serve s).cache.Sound (requests.foldl serve s).classes := by
  induction requests generalizing s with
  | nil => exact h
  | cons request requests ih => exact ih (sound_serve h request)

/-- **The cache is transparent.** After any sequence of requests to a session that started with an
empty cache, compiling a descriptor gives the type, or the fault, that compiling it with an empty
cache gives, which is its meaning; and if it is a fault, the cache stays as it was. -/
theorem compile_transparent (classes : ClassTable) (requests : List Request) (descriptor : String) :
    let s := requests.foldl Session.serve { classes := classes }
    (s.cache.compile s.classes descriptor).1.map (·.type) =
        (TypeCache.compile {} s.classes descriptor).1.map (·.type) ∧
      (TypeCache.compile {} s.classes descriptor).1.map (·.type) =
        Descriptor.meaning s.classes descriptor ∧
      ∀ fault, (s.cache.compile s.classes descriptor).1 = .error fault →
        (s.cache.compile s.classes descriptor).2 = s.cache := by
  intro s
  have hsound : s.cache.Sound s.classes :=
    Session.sound_foldl (TypeCache.sound_empty classes) requests
  have hfresh := (TypeCache.compile_sound (TypeCache.sound_empty s.classes) descriptor).1
  have hcached := (TypeCache.compile_sound hsound descriptor).1
  exact ⟨hcached.trans hfresh.symm, hfresh, fun fault h => TypeCache.compile_snd_of_error h⟩

/-- A class that is not there leaves no trace, neither under its name nor in a container. -/
theorem compile_transparent_unknownClass :
    let s := [Request.compile "array", .compile " Shape[]"].foldl Session.serve { classes := {} }
    (s.cache.compile s.classes "Shape").1 = .error (.unknownClass "Shape" "Shape") ∧
      (s.cache.compile s.classes "Shape").2 = s.cache := by
  intro s
  have hfault : (s.cache.compile s.classes "Shape").1 =
      .error (.unknownClass "Shape" "Shape") := by
    decide +kernel
  have hkept := (compile_transparent {} [.compile "array", .compile " Shape[]"] "Shape").2.2
  exact ⟨hfault, hkept _ hfault⟩

-- the bare word is bound, and yet the word with a tag is a container of anything
example : let s := [Request.compile "array", .compile "int[]"].foldl Session.serve { classes := {} }
    (s.cache.compile s.classes "Array[int]").1.map (·.type) = .ok (.container .int .mixed) := by
  decide +kernel

end ScriptCheck
