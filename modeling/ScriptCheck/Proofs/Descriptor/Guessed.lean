import ScriptCheck.Descriptor.Guess
import ScriptCheck.Proofs.Class.Ancestors
import ScriptCheck.Proofs.Descriptor.Display

/-!
A guessed descriptor describes its value.

The guess for a value is a modern spelling: a name, and one tag for each array around it. `Spells`
says so of a text together with the type it means, and putting a tag in front of the others spells
the container (`Spells.insertTag`). The guess is followed over the value: an array is written with
the spelling that all its elements share, and then all of them have one type, or with that of
`mixed`, which admits everything.

The names of classes come into the guess as they stand in the value. They have to be names that a
descriptor may have, of classes that there are, and none of the words with a meaning of their own.
-/

namespace ScriptCheck

namespace Value

/-! ### Values -/

mutual

/-- The names of the classes of the objects in a value. -/
def classNames : Value → List String
  | .object className => [className]
  | .array entries => entryNames entries
  | _ => []

/-- The names of the classes of the objects in the elements of an array. -/
def entryNames : List (Key × Value) → List String
  | [] => []
  | (_, value) :: rest => value.classNames ++ entryNames rest

end

lemma mem_entryNames {entries : List (Key × Value)} {name : String} :
    name ∈ entryNames entries ↔ ∃ entry ∈ entries, name ∈ entry.2.classNames := by
  induction entries with
  | nil => simp [entryNames]
  | cons entry rest ih => simp [entryNames, ih]

lemma guesses_eq (entries : List (Key × Value)) :
    guesses entries = entries.map fun entry => entry.2.guess := by
  induction entries with
  | nil => rfl
  | cons entry rest ih => rw [guesses, ih, List.map_cons]

/-- The descriptor that stands for the elements of an array that starts with the given one. -/
def shape (first : Value) (rest : List (Key × Value)) : List Char :=
  if rest.all fun entry => entry.2.guess == first.guess then first.guess else "mixed".toList

lemma guess_cons (key : Key) (first : Value) (rest : List (Key × Value)) :
    (array ((key, first) :: rest)).guess =
      insertTag (shape first rest) (keysOf ((key, first) :: rest)).tag.toList := by
  have hall : (guesses rest).all (· == first.guess) =
      rest.all fun entry => entry.2.guess == first.guess := by
    rw [guesses_eq, List.all_map]
    rfl
  rw [shape, ← hall]
  rfl

/-- Induction over values: what holds of the values that are no arrays, and of an array if it
holds of its elements, holds of every value. -/
lemma ind {motive : Value → Prop} (simple : ∀ v, (∀ entries, v ≠ .array entries) → motive v)
    (array : ∀ entries, (∀ entry ∈ entries, motive entry.2) → motive (.array entries)) (v : Value) :
    motive v := by
  refine @Value.rec motive (fun entries => ∀ entry ∈ entries, motive entry.2)
    (fun entry => motive entry.2) ?null ?boolean ?int ?float ?string ?resource array ?object
    ?nil ?cons ?entry v
  case nil => exact List.forall_mem_nil _
  case cons => exact fun _ _ hentry hentries => List.forall_mem_cons.mpr ⟨hentry, hentries⟩
  case entry => exact fun _ _ h => h
  all_goals intros; exact simple _ fun _ h => nomatch h

end Value

/-! ### Keys and types -/

/-- The keys that an array has include the key of each entry. -/
lemma admits_keysOf {entries : List (Key × Value)} {entry : Key × Value} (h : entry ∈ entries) :
    (keysOf entries).admits entry.1 = true := by
  rw [keysOf]
  split
  · exact List.all_eq_true.mp ‹_› entry h
  · split
    · exact List.all_eq_true.mp ‹_› entry h
    · rfl

namespace Ty

variable {t : ClassTable}

lemma admits_mixed (v : Value) : mixed.admits t v = true := by
  cases v <;> rfl

lemma admits_container {key : Keys} {element : Ty} {entries : List (Key × Value)}
    (hkeys : ∀ entry ∈ entries, key.admits entry.1 = true)
    (helement : ∀ entry ∈ entries, element.admits t entry.2 = true) :
    (container key element).admits t (.array entries) = true := by
  rw [admits, List.all_eq_true]
  intro entry h
  rw [hkeys entry h, helement entry h, Bool.and_self]

end Ty

namespace Descriptor

/-! ### Spellings -/

/-- The text is a modern spelling of the type: a name that means the innermost type, followed by the
tags of the containers around it. -/
def Spells (t : ClassTable) (text : List Char) (type : Ty) : Prop :=
  ∃ name tags base, text = name ++ writeTags tags ∧ IsName name ∧ ¬ IsArrayWord name ∧
    named? t (String.ofList name) = some base ∧ type = tags.foldr Ty.container base

variable {t : ClassTable} {text : List Char} {type : Ty}

lemma Spells.meaning_eq (h : Spells t text type) : meaning t (String.ofList text) = .ok type := by
  obtain ⟨name, tags, base, rfl, hname, harray, hbase, rfl⟩ := h
  rw [meaning_modern t hname harray, hbase]

/-- A text spells one type. -/
lemma Spells.unique {other : Ty} (h : Spells t text type) (hother : Spells t text other) :
    type = other :=
  Except.ok.inj (h.meaning_eq.symm.trans hother.meaning_eq)

lemma spells_of_named {name : List Char} (hname : IsName name) (harray : ¬ IsArrayWord name)
    (hbase : named? t (String.ofList name) = some type) : Spells t name type :=
  ⟨name, [], type, (List.append_nil name).symm, hname, harray, hbase, rfl⟩

lemma spells_of_isBasic (h : type.isBasic = true) : Spells t type.chars type := by
  obtain ⟨hname, harray, hbase⟩ := chars_of_isBasic h t
  exact spells_of_named hname harray hbase

/-- A further tag spells a container of what was spelled before. -/
lemma Spells.insertTag (h : Spells t text type) (key : Keys) :
    Spells t (insertTag text key.tag.toList) (.container key type) := by
  obtain ⟨name, tags, base, rfl, hname, harray, hbase, rfl⟩ := h
  have htag : writeTags [key] = key.tag.toList := List.append_nil _
  refine ⟨name, key :: tags, base, ?_, hname, harray, hbase, rfl⟩
  rw [← htag, insertTag_modern hname]
  rfl

/-- A name that a value may have for a class: one that a descriptor may have, of a class of the
table, and no word with a meaning of its own. -/
def NamesClass (t : ClassTable) (name : String) : Prop :=
  IsName name.toList ∧ (∃ id, t.idOf? name = some id) ∧ Text.lowerAscii name ∉ reservedWords

lemma NamesClass.spells_ofClass {name : String} (h : NamesClass t name) :
    ∃ id, t.idOf? name = some id ∧ Spells t name.toList (.ofClass id (t.nameOf id)) := by
  obtain ⟨hname, ⟨id, hid⟩, hword⟩ := h
  obtain ⟨hbasic, harray⟩ := not_mem_reservedWords_iff.mp hword
  have hnamed : named? t name = some (.ofClass id (t.nameOf id)) := by
    rw [named?, hbasic, hid, Option.map_some]
  refine ⟨id, hid, spells_of_named hname harray ?_⟩
  rwa [String.ofList_toList]

lemma NamesClass.spells {name : String} (h : NamesClass t name) :
    ∃ type, Spells t name.toList type ∧ type.admits t (.object name) = true := by
  obtain ⟨id, hid, hspells⟩ := h.spells_ofClass
  refine ⟨.ofClass id (t.nameOf id), hspells, ?_⟩
  rw [Ty.admits, hid]
  exact t.isSubclass_refl id

/-! ### Guesses -/

/-- If each element of an array has a type that its guess spells, the descriptor that stands for the
elements spells a type that admits them all. -/
lemma shape_spells {key : Key} {first : Value} {rest : List (Key × Value)}
    (h : ∀ entry ∈ (key, first) :: rest,
      ∃ type, Spells t entry.2.guess type ∧ type.admits t entry.2 = true) :
    ∃ type, Spells t (Value.shape first rest) type ∧
      ∀ entry ∈ (key, first) :: rest, type.admits t entry.2 = true := by
  rw [Value.shape]
  split
  case isTrue hall =>
    obtain ⟨type, hspells, hfirst⟩ := h (key, first) List.mem_cons_self
    refine ⟨type, hspells, List.forall_mem_cons.mpr ⟨hfirst, fun entry hentry => ?_⟩⟩
    -- a guess that is the same spells the same type
    have hsame : entry.2.guess = first.guess := eq_of_beq (List.all_eq_true.mp hall entry hentry)
    obtain ⟨type', hspells', hadmits⟩ := h entry (List.mem_cons_of_mem _ hentry)
    rw [hsame] at hspells'
    rwa [hspells.unique hspells']
  case isFalse =>
    exact ⟨.mixed, @spells_of_isBasic t .mixed rfl, fun entry _ => Ty.admits_mixed entry.2⟩

/-- A guess spells a type that admits the value. -/
lemma guess_spells (v : Value) (h : ∀ name ∈ v.classNames, NamesClass t name) :
    ∃ type, Spells t v.guess type ∧ type.admits t v = true := by
  induction v using Value.ind with
  | simple v hsimple =>
      have hbasic : ∀ type : Ty, type.isBasic = true → Spells t type.chars type :=
        fun _ => spells_of_isBasic
      cases v with
      | null => exact ⟨.null, hbasic .null rfl, rfl⟩
      | boolean b => exact ⟨.boolean, hbasic .boolean rfl, rfl⟩
      | int n => exact ⟨.int, hbasic .int rfl, rfl⟩
      | float bits => exact ⟨.float, hbasic .float rfl, rfl⟩
      | string s => exact ⟨.string, hbasic .string rfl, rfl⟩
      | resource kind => exact ⟨.resource, hbasic .resource rfl, rfl⟩
      | object name => exact (h name (by simp [Value.classNames])).spells
      | array entries => exact absurd rfl (hsimple entries)
  | array entries ih =>
      have helement : ∀ entry ∈ entries,
          ∃ type, Spells t entry.2.guess type ∧ type.admits t entry.2 = true := by
        intro entry hentry
        refine ih entry hentry fun name hname => h name ?_
        exact Value.mem_entryNames.mpr ⟨entry, hentry, hname⟩
      cases entries with
      | nil =>
          have hmixed := (@spells_of_isBasic t .mixed rfl).insertTag .either
          exact ⟨.container .either .mixed, hmixed, rfl⟩
      | cons entry rest =>
          obtain ⟨type, hspells, hadmits⟩ := shape_spells helement
          rw [Value.guess_cons]
          exact ⟨_, hspells.insertTag _, Ty.admits_container (fun _ => admits_keysOf) hadmits⟩

end Descriptor

/-- **A guessed descriptor describes its value.** Let every object in a value be of a class of the
table under a name that a descriptor may have and that is no word of its own, `array` included.
Then, after any sequence of requests to a session that started with an empty cache, the guess for
the value compiles, its type admits the value, and checking the value against it gives the value
back. -/
theorem guess_describes (classes : ClassTable) (requests : List Request) (v : Value) :
    let s := requests.foldl Session.serve { classes := classes }
    (∀ name ∈ v.classNames, Descriptor.IsName name.toList ∧ (∃ id, s.classes.idOf? name = some id) ∧
      Text.lowerAscii name ∉ Descriptor.reservedWords) →
    (∃ made, (s.cache.compile s.classes (String.ofList v.guess)).1 = .ok made ∧
        made.type.admits s.classes v = true) ∧
      (checkValue s.cache s.classes (String.ofList v.guess) v).1 = .ok v := by
  intro s hnames
  obtain ⟨type, hspells, hadmits⟩ := Descriptor.guess_spells v hnames
  have hsound : s.cache.Sound s.classes :=
    Session.sound_foldl (TypeCache.sound_empty classes) requests
  have hcompile := (TypeCache.compile_sound hsound (String.ofList v.guess)).1
  rw [hspells.meaning_eq] at hcompile
  rcases hresult : s.cache.compile s.classes (String.ofList v.guess) with ⟨made | made, cache⟩
  · rw [hresult] at hcompile
    cases hcompile
  · rw [hresult] at hcompile
    have htype : made.type = type := Except.ok.inj hcompile
    rw [← htype] at hadmits
    refine ⟨⟨made, rfl, hadmits⟩, ?_⟩
    rw [checkValue, hresult]
    dsimp only
    rw [if_pos hadmits]

/-- Two arrays under numbers, each with an object of one class under a string. -/
theorem guess_describes_nested :
    let classes : ClassTable := { defs := [{ name := "Shape", position := default }] }
    let v : Value := .array [(.int 0, .array [(.string "left", .object "\\shape")]),
      (.int 1, .array [(.string "right", .object "\\shape")])]
    v.guess = "\\shape[int][string]".toList ∧
      (checkValue {} classes (String.ofList v.guess) v).1 = .ok v := by
  intro classes v
  refine ⟨by decide +kernel, (guess_describes classes [] v fun name hname => ?_).2⟩
  have hshape : name = "\\shape" := by
    simpa [v, Value.classNames, Value.entryNames] using hname
  subst hshape
  refine ⟨⟨'\\', "shape".toList, by decide, by decide, List.all_eq_true.mp (by decide)⟩,
    ⟨0, by decide +kernel⟩, by decide⟩

end ScriptCheck
