import Mathlib.Data.List.DropRight
import ScriptCheck.Proofs.Class.Names
import ScriptCheck.Proofs.Descriptor.Language

/-!
Descriptors of types that are compiled back.

The descriptor of a type is the name of its innermost element with the tags of the containers around
it (`Ty.chars_foldr`). Compiling it gives the type again if the name still means what it is the name of.
Basic types are written as their keywords. A class is found under other spellings than its own name,
with separators in front, so its own name may be a keyword, or no name that a descriptor can have:
`display_compiles_iff` says exactly when the descriptor of a compiled type is compiled back.
-/

namespace ScriptCheck

/-! ### The parts of a type -/

namespace Ty

/-- The element of the innermost container, or the type itself if it is no container. -/
def innermost : Ty → Ty
  | container _ element => element.innermost
  | type => type

/-- Whether the type is a basic one. -/
def isBasic : Ty → Bool
  | ofClass .. | container .. => false
  | _ => true

lemma innermost_foldr (keys : List Keys) (type : Ty) :
    (keys.foldr container type).innermost = type.innermost := by
  induction keys with
  | nil => rfl
  | cons key keys ih => exact ih

lemma innermost_of_isBasic {type : Ty} (h : type.isBasic = true) : type.innermost = type := by
  cases type <;> first | rfl | cases h

/-- The descriptor of a type is that of its innermost element with the tags behind it. -/
lemma chars_foldr {type : Ty} (h : '[' ∉ type.chars) (keys : List Keys) :
    (keys.foldr container type).chars = type.chars ++ Descriptor.writeTags keys := by
  induction keys with
  | nil => rw [Descriptor.writeTags, List.flatMap_nil, List.append_nil, List.foldr_nil]
  | cons key keys ih =>
      have hsplit := Descriptor.splitTags_append h (Descriptor.writeTags_eq_nil_or keys)
      change insertTag (keys.foldr container type).chars key.tag.toList = _
      rw [ih, insertTag, hsplit, Descriptor.writeTags_cons]
      exact List.append_assoc _ _ _

end Ty

/-! ### Words -/

namespace Descriptor

/-- The words that mean a basic type. -/
def basicWords : List String :=
  ["mixed", "null", "boolean", "bool", "int", "integer", "float", "double", "real", "string",
    "resource", "object"]

/-- The words that never mean a class: those of the basic types, and that of the older form. -/
def reservedWords : List String :=
  "array" :: basicWords

lemma basic?_eq_none_iff {name : String} : basic? name = none ↔ Text.lowerAscii name ∉ basicWords := by
  rw [basic?]
  split <;> simp_all [basicWords]

lemma isBasic_of_basic? {name : String} {type : Ty} (h : basic? name = some type) :
    type.isBasic = true := by
  rw [basic?] at h
  split at h <;> cases h <;> rfl

lemma isArrayWord_iff {name : String} : IsArrayWord name.toList ↔ Text.lowerAscii name = "array" := by
  rw [IsArrayWord, Text.lowerAscii, ← String.toList_inj, String.toList_ofList]
  rfl

lemma not_mem_reservedWords_iff {name : String} :
    Text.lowerAscii name ∉ reservedWords ↔ basic? name = none ∧ ¬ IsArrayWord name.toList := by
  rw [reservedWords, List.mem_cons, not_or, basic?_eq_none_iff, isArrayWord_iff, and_comm]

/-- The name starts with a letter or an underscore. -/
def StartsPlainly (name : String) : Prop :=
  ∃ c rest, name.toList = c :: rest ∧ (c.isAlpha = true ∨ c = '_')

lemma isNameStart_iff {c : Char} :
    isNameStart c = true ↔ c.isAlpha = true ∨ c = '_' ∨ c = '\\' := by
  have halpha : c.isAlpha = (decide ('A'.val ≤ c.val ∧ c.val ≤ 'Z'.val) ||
      (decide ('a'.val ≤ c.val) && decide (c.val ≤ 'z'.val))) := rfl
  simp [isNameStart, halpha, Char.le_def]
  tauto

/-- The descriptor of a basic type is a name that means it. -/
lemma chars_of_isBasic {type : Ty} (h : type.isBasic = true) (t : ClassTable) :
    IsName type.chars ∧ ¬ IsArrayWord type.chars ∧
      named? t (String.ofList type.chars) = some type := by
  have hname : ∀ c rest, isNameStart c = true → rest.all isNameRest = true → IsName (c :: rest) :=
    fun c rest hc hrest => ⟨c, rest, rfl, hc, List.all_eq_true.mp hrest⟩
  cases type with
  | ofClass | container => cases h
  | _ => exact ⟨hname _ _ (by decide) (by decide), by decide, rfl⟩

lemma exists_of_meaning {t : ClassTable} {descriptor : String} {type : Ty}
    (h : meaning t descriptor = .ok type) :
    ∃ name tags base, parse? (modernText descriptor) = some (name, tags) ∧
      named? t (String.ofList name) = some base ∧ type = tags.foldr Ty.container base := by
  cases hparse : parse? (modernText descriptor) with
  | none => cases (meaning_of_parse?_none t hparse).symm.trans h
  | some parsed =>
      obtain ⟨name, tags⟩ := parsed
      rw [meaning_of_parse?_some t hparse] at h
      cases hnamed : named? t (String.ofList name) with
      | none =>
          rw [hnamed] at h
          cases h
      | some base =>
          rw [hnamed] at h
          exact ⟨name, tags, base, rfl, hnamed, (Except.ok.inj h).symm⟩

end Descriptor

/-! ### Names of classes -/

namespace ClassTable

/-- A table that was filled by adding classes of which only the name is known. -/
inductive OfStubs : ClassTable → Prop
  | empty : OfStubs {}
  | add {t : ClassTable} (name : String) (isInterface : Bool) (position : Position) :
      OfStubs t → OfStubs (t.add (.stub name isInterface position)).2

open Descriptor

variable {t : ClassTable}

lemma OfStubs.built (h : t.OfStubs) : t.Built := by
  induction h with
  | empty => exact .empty
  | add name isInterface position _ ih => exact .add _ ih

/-- The name of a stub has no separators in front. -/
lemma OfStubs.dropSeparators_eq (h : t.OfStubs) :
    ∀ decl ∈ t.defs, Text.dropSeparators decl.name = decl.name := by
  induction h with
  | empty => exact List.forall_mem_nil _
  | @add t name isInterface position _ ih =>
      rw [ClassTable.add]
      split
      · exact ih
      · refine List.forall_mem_append.mpr ⟨ih, List.forall_mem_singleton.mpr ?_⟩
        rw [ClassDef.stub, Text.dropSeparators, Text.dropSeparators, String.toList_ofList,
          List.dropWhile_idempotent]

/-- The class that a name means has that name, up to case and leading separators. -/
lemma nameKey_of_idOf? {name : String} {id : ClassId} (h : t.idOf? name = some id) :
    ∃ decl, t.get? id = some decl ∧ t.nameOf id = decl.name ∧
      Text.nameKey decl.name = Text.nameKey name := by
  obtain ⟨hlt, hkey, -⟩ := List.findIdx?_eq_some_iff_getElem.mp h
  have hget : t.get? id = some t.defs[id] := List.getElem?_eq_getElem hlt
  refine ⟨_, hget, ?_, beq_iff_eq.mp hkey⟩
  rw [nameOf, hget]
  rfl

variable {name : List Char} {id : ClassId}

/-- The name of a class that a descriptor names has only characters of names. -/
lemma OfStubs.isNameRest_nameOf (ht : t.OfStubs) (hname : IsName name)
    (hid : t.idOf? (String.ofList name) = some id) :
    ∀ c ∈ (t.nameOf id).toList, isNameRest c = true := by
  obtain ⟨decl, hget, hnameOf, hkey⟩ := nameKey_of_idOf? hid
  have hchars : decl.name.toList.map Char.toLower =
      (name.dropWhile (· == '\\')).map Char.toLower := by
    rw [Text.nameKey, ht.dropSeparators_eq decl (List.mem_of_getElem? hget)] at hkey
    simpa [Text.nameKey, Text.lowerAscii, Text.dropSeparators] using congrArg String.toList hkey
  intro c hc
  rw [hnameOf] at hc
  obtain ⟨c', hc', hlower⟩ := List.mem_map.mp (hchars ▸ List.mem_map_of_mem hc)
  rw [← isNameRest_toLower c, ← hlower, isNameRest_toLower]
  exact hname.isNameRest c' ((List.dropWhile_sublist _).mem hc')

/-- Such a name is one that a descriptor can have, as it stands, if its first character is a letter
or an underscore. -/
lemma OfStubs.isName_nameOf_iff (ht : t.OfStubs) (hname : IsName name)
    (hid : t.idOf? (String.ofList name) = some id) :
    IsName (t.nameOf id).toList ↔ StartsPlainly (t.nameOf id) := by
  have hrest := ht.isNameRest_nameOf hname hid
  obtain ⟨decl, hget, hnameOf, -⟩ := nameKey_of_idOf? hid
  have htrim := ht.dropSeparators_eq decl (List.mem_of_getElem? hget)
  rw [hnameOf] at hrest ⊢
  constructor
  · rintro ⟨c, rest, heq, hc, -⟩
    refine ⟨c, rest, heq, ?_⟩
    rcases isNameStart_iff.mp hc with hc | hc | rfl
    · exact .inl hc
    · exact .inr hc
    · -- a stub has no separator in front
      have hdrop : decl.name.toList.dropWhile (· == '\\') = decl.name.toList := by
        simpa [Text.dropSeparators] using congrArg String.toList htrim
      have hlen := (List.dropWhile_sublist (· == '\\') (l := rest)).length_le
      rw [heq, List.dropWhile_cons_of_pos (by rfl)] at hdrop
      rw [hdrop, List.length_cons] at hlen
      omega
  · rintro ⟨c, rest, heq, hc⟩
    exact ⟨c, rest, heq, isNameStart_iff.mpr (hc.imp_right .inl),
      fun d hd => hrest d (heq ▸ List.mem_cons_of_mem c hd)⟩

end ClassTable

/-! ### Compiling back -/

namespace Descriptor

variable {t : ClassTable} {name : List Char} {id : ClassId}

lemma named?_cases {name : String} {base : Ty} (h : named? t name = some base) :
    basic? name = some base ∨
      basic? name = none ∧ ∃ id, t.idOf? name = some id ∧ base = .ofClass id (t.nameOf id) := by
  rw [named?] at h
  cases hbasic : basic? name with
  | some type =>
      rw [hbasic] at h
      exact .inl h
  | none =>
      rw [hbasic] at h
      obtain ⟨id, hid, heq⟩ := Option.map_eq_some_iff.mp h
      exact .inr ⟨rfl, id, hid, heq.symm⟩

/-- The descriptor of containers of a basic type means them. -/
lemma meaning_display_of_isBasic {base : Ty} (h : base.isBasic = true) (tags : List Keys) :
    meaning t (tags.foldr Ty.container base).display = .ok (tags.foldr Ty.container base) := by
  obtain ⟨hname, harray, hnamed⟩ := chars_of_isBasic h t
  rw [Ty.display, Ty.chars_foldr hname.not_bracket_mem, meaning_modern t hname harray, hnamed]

/-- Under the word `array` an element can only be anything. -/
lemma meaning_arrayWord {word : List Char} (h : IsArrayWord word) (tags : List Keys) :
    ∃ keys, meaning t (String.ofList (word ++ writeTags tags)) =
      .ok (List.foldr Ty.container .mixed keys) := by
  have htrim : Text.trimBlanks (String.ofList (word ++ writeTags tags)).toList =
      word ++ writeTags tags := by
    rw [String.toList_ofList]
    exact trimBlanks_eq_self (not_isBlank_of_mem_modern (isName_of_isArrayWord h).isNameRest tags)
  cases tags with
  | nil =>
      refine ⟨[.either], (meaning_eq_ok_iff t _ _).mpr ⟨.bareArray, ?_, rfl⟩⟩
      rw [htrim, writeTags, List.flatMap_nil, List.append_nil]
      exact .bareArray h
  | cons key tags =>
      refine ⟨key :: tags, (meaning_eq_ok_iff t _ _).mpr ⟨.arrayOfAnything key tags, ?_, rfl⟩⟩
      rw [htrim]
      exact .arrayOfAnything key tags h

/-- The descriptor of containers of a class means them exactly if the name of the class is a name
that descriptors can have and no reserved word. -/
lemma meaning_display_of_class (ht : t.OfStubs) (hname : IsName name)
    (hid : t.idOf? (String.ofList name) = some id) (tags : List Keys) :
    meaning t (tags.foldr Ty.container (.ofClass id (t.nameOf id))).display =
        .ok (tags.foldr Ty.container (.ofClass id (t.nameOf id))) ↔
      StartsPlainly (t.nameOf id) ∧ Text.lowerAscii (t.nameOf id) ∉ reservedWords := by
  have hrest := ht.isNameRest_nameOf hname hid
  have hbracket := bracket_not_mem hrest
  have hinner := Ty.innermost_foldr tags (.ofClass id (t.nameOf id))
  rw [← ht.isName_nameOf_iff hname hid, not_mem_reservedWords_iff, Ty.display,
    Ty.chars_foldr (show '[' ∉ (Ty.ofClass id (t.nameOf id)).chars from hbracket)]
  change meaning t (String.ofList ((t.nameOf id).toList ++ writeTags tags)) = _ ↔ _
  constructor
  · intro h
    have harray : ¬ IsArrayWord (t.nameOf id).toList := by
      intro harray
      obtain ⟨keys, hkeys⟩ := meaning_arrayWord (t := t) harray tags
      have heq := congrArg Ty.innermost (Except.ok.inj (hkeys.symm.trans h))
      rw [Ty.innermost_foldr, hinner] at heq
      cases heq
    obtain ⟨name', tags', base, hparse, hnamed, htype⟩ := exists_of_meaning h
    rw [modernText_modern hrest harray] at hparse
    obtain ⟨hname', htext⟩ := parse?_eq_some_iff.mp hparse
    -- both texts split before their first bracket
    have hsplit := congrArg splitTags htext
    rw [splitTags_append hbracket (writeTags_eq_nil_or tags), splitTags_modern hname'] at hsplit
    obtain rfl : (t.nameOf id).toList = name' := congrArg Prod.fst hsplit
    rw [String.ofList_toList] at hnamed
    rcases named?_cases hnamed with hbasic | ⟨hbasic, -⟩
    · have hbase := isBasic_of_basic? hbasic
      have heq := congrArg Ty.innermost htype
      rw [hinner, Ty.innermost_foldr, Ty.innermost_of_isBasic hbase] at heq
      rw [← heq] at hbase
      cases hbase
    · exact ⟨hname', hbasic, harray⟩
  · rintro ⟨hname', hbasic, harray⟩
    have hsize : id < t.size := (List.findIdx?_eq_some_iff_getElem.mp hid).1
    have hnamed : named? t (t.nameOf id) = some (.ofClass id (t.nameOf id)) := by
      rw [named?, hbasic, ht.built.idOf?_nameOf hsize]
      rfl
    rw [meaning_modern t hname' harray, String.ofList_toList, hnamed]

end Descriptor

/-- The descriptor of the type is compiled back: its innermost element is of a basic type, or a class
whose name starts with a letter or an underscore and is no reserved word. -/
def Ty.IsReadable (type : Ty) : Prop :=
  type.innermost.isBasic = true ∨
    ∃ id name, type.innermost = .ofClass id name ∧ Descriptor.StartsPlainly name ∧
      Text.lowerAscii name ∉ Descriptor.reservedWords

/-- **The descriptor of a compiled type is compiled back exactly if the type is readable.** -/
theorem display_compiles_iff {t : ClassTable} (ht : t.OfStubs) {descriptor : String} {type : Ty}
    (h : (TypeCache.compile {} t descriptor).1.map (·.type) = .ok type) :
    (TypeCache.compile {} t type.display).1.map (·.type) = .ok type ↔ type.IsReadable := by
  rw [(TypeCache.compile_sound (TypeCache.sound_empty t) descriptor).1] at h
  rw [(TypeCache.compile_sound (TypeCache.sound_empty t) type.display).1]
  obtain ⟨name, tags, base, hparse, hnamed, rfl⟩ := Descriptor.exists_of_meaning h
  have hname := (Descriptor.parse?_eq_some_iff.mp hparse).1
  rw [Ty.IsReadable, Ty.innermost_foldr]
  rcases Descriptor.named?_cases hnamed with hbasic | ⟨-, id, hid, rfl⟩
  · have hbase := Descriptor.isBasic_of_basic? hbasic
    rw [Ty.innermost_of_isBasic hbase]
    exact iff_of_true (Descriptor.meaning_display_of_isBasic hbase tags) (.inl hbase)
  · rw [Descriptor.meaning_display_of_class ht hname hid tags]
    constructor
    · exact fun hread => .inr ⟨id, _, rfl, hread⟩
    · rintro (hbase | ⟨_, _, heq, hread⟩)
      · cases hbase
      · cases heq
        exact hread

/-- A class named like a keyword can be found with a separator in front of its name, but its own name
is read as the keyword. -/
theorem display_compiles_iff_keywordClass :
    let t := ((({} : ClassTable).add (.stub "Point" false .nowhere)).2.add
      (.stub "\\Int" false .nowhere)).2
    let points := Ty.container .either (.ofClass 0 "Point")
    let ints := Ty.container .either (.ofClass 1 "Int")
    (TypeCache.compile {} t "array[] point").1.map (·.type) = .ok points ∧
      (TypeCache.compile {} t points.display).1.map (·.type) = .ok points ∧
      (TypeCache.compile {} t "\\int[]").1.map (·.type) = .ok ints ∧
      (TypeCache.compile {} t ints.display).1.map (·.type) ≠ .ok ints := by
  intro t points ints
  have ht : t.OfStubs := .add _ _ _ (.add _ _ _ .empty)
  have hpoints : (TypeCache.compile {} t "array[] point").1.map (·.type) = .ok points := by
    decide +kernel
  have hints : (TypeCache.compile {} t "\\int[]").1.map (·.type) = .ok ints := by
    decide +kernel
  refine ⟨hpoints, (display_compiles_iff ht hpoints).mpr ?_, hints, fun h => ?_⟩
  · exact .inr ⟨0, "Point", rfl, ⟨'P', _, rfl, .inl rfl⟩, by decide⟩
  · rcases (display_compiles_iff ht hints).mp h with hbasic | ⟨_, _, heq, -, hword⟩
    · cases hbasic
    · cases heq
      exact hword (by decide)

end ScriptCheck
