import ScriptCheck.Proofs.Descriptor.Guessed
import ScriptCheck.Proofs.Ty.Refinement

/-!
A guessed descriptor is principal.

Many types admit a value. The type that its guess means is the one that all of them accept
(`guess_is_principal`): whatever admits the value also accepts, in a lax check, something of the
guessed type. What a type admits and what it accepts are found by two recursions of their own; they
meet in the guess, part by part.

* A value that is no array has a type of its own kind, and nothing but this type, the type of anything
  and for an object the types above its class admit it (`exists_isPrincipal_simple`).
* The keys of an array are guessed as one kind only if they are all of it, and then a type that admits
  them has this kind or both (`keysOf_compatible`).
* The elements of an array are guessed as the first one if they are guessed alike, and else as
  anything, which a lax check accepts (`exists_isPrincipal_shape`).
-/

namespace ScriptCheck

/-- A container that admits the keys of an array has keys that go with those guessed for it. -/
lemma keysOf_compatible {key : Keys} {entries : List (Key × Value)} (hne : entries ≠ [])
    (h : ∀ entry ∈ entries, key.admits entry.1 = true) :
    (key == .either || keysOf entries == .either || key == keysOf entries) = true := by
  cases key with
  | either => rfl
  | int =>
      have hkeys : keysOf entries = .int := if_pos (List.all_eq_true.mpr h)
      rw [hkeys]
      rfl
  | string =>
      obtain ⟨entry, rest, rfl⟩ := List.exists_cons_of_ne_nil hne
      have hint : ((entry :: rest).all fun e => Keys.int.admits e.1) = false := by
        have hfirst := h entry List.mem_cons_self
        rw [List.all_cons]
        cases hkey : entry.1 with
        | int n =>
            rw [hkey] at hfirst
            cases hfirst
        | string s => rfl
      have hkeys : keysOf (entry :: rest) = .string := by
        rw [keysOf, hint, if_neg Bool.false_ne_true, if_pos (List.all_eq_true.mpr h)]
      rw [hkeys]
      rfl

namespace Descriptor

variable {t : ClassTable}

/-- Every type that admits the value accepts the type in a lax check. -/
def IsPrincipal (t : ClassTable) (type : Ty) (v : Value) : Prop :=
  ∀ target : Ty, target.admits t v = true → target.accepts t false type = true

/-! ### Values that are no arrays -/

/-- Whatever admits an object accepts the type of its class: it is a type above that class, or admits
all objects. -/
lemma isPrincipal_ofClass {name : String} {id : ClassId} (h : t.idOf? name = some id)
    {shown : String} : IsPrincipal t (.ofClass id shown) (.object name) := by
  intro target hadmits
  cases target with
  | mixed | object => rfl
  | ofClass other otherName =>
      obtain ⟨actual, hactual, hsub⟩ := Ty.admits_object.mp hadmits
      rw [h] at hactual
      rw [Option.some.inj hactual]
      exact hsub
  | _ => cases hadmits

lemma exists_isPrincipal_simple {v : Value} (hsimple : ∀ entries, v ≠ .array entries)
    (h : ∀ name ∈ v.classNames, NamesClass t name) :
    ∃ type, Spells t v.guess type ∧ IsPrincipal t type v := by
  have hbasic : ∀ type : Ty, type.isBasic = true → Spells t type.chars type :=
    fun _ => spells_of_isBasic
  cases v with
  | null =>
      refine ⟨.null, hbasic .null rfl, fun target hadmits => ?_⟩
      cases target <;> exact hadmits
  | boolean b =>
      refine ⟨.boolean, hbasic .boolean rfl, fun target hadmits => ?_⟩
      cases target <;> first | rfl | cases hadmits
  | int n =>
      refine ⟨.int, hbasic .int rfl, fun target hadmits => ?_⟩
      cases target <;> first | rfl | cases hadmits
  | float bits =>
      refine ⟨.float, hbasic .float rfl, fun target hadmits => ?_⟩
      cases target <;> first | rfl | cases hadmits
  | string s =>
      refine ⟨.string, hbasic .string rfl, fun target hadmits => ?_⟩
      cases target <;> first | rfl | cases hadmits
  | resource kind =>
      refine ⟨.resource, hbasic .resource rfl, fun target hadmits => ?_⟩
      cases target <;> first | rfl | cases hadmits
  | object name =>
      obtain ⟨id, hid, hspells⟩ := (h name (by simp [Value.classNames])).spells_ofClass
      exact ⟨_, hspells, isPrincipal_ofClass hid⟩
  | array entries => exact absurd rfl (hsimple entries)

/-! ### Arrays -/

/-- The descriptor that stands for the elements of an array spells a type that every type accepts
that admits all of them. -/
lemma exists_isPrincipal_shape {key : Key} {first : Value} {rest : List (Key × Value)}
    (h : ∃ type, Spells t first.guess type ∧ IsPrincipal t type first) :
    ∃ type, Spells t (Value.shape first rest) type ∧ ∀ element : Ty,
      (∀ entry ∈ (key, first) :: rest, element.admits t entry.2 = true) →
      element.accepts t false type = true := by
  rw [Value.shape]
  split
  case isTrue =>
    obtain ⟨type, hspells, hprincipal⟩ := h
    exact ⟨type, hspells, fun element hadmits =>
      hprincipal element (hadmits (key, first) List.mem_cons_self)⟩
  case isFalse =>
    exact ⟨.mixed, @spells_of_isBasic t .mixed rfl, fun element _ => Ty.accepts_lax_mixed t element⟩

/-- A container is principal for an array if its keys and its element are accepted wherever those of
the array are admitted. -/
lemma isPrincipal_container {key : Keys} {element : Ty} {entries : List (Key × Value)}
    (hkeys : ∀ other : Keys, (∀ entry ∈ entries, other.admits entry.1 = true) →
      (other == .either || key == .either || other == key) = true)
    (helement : ∀ other : Ty, (∀ entry ∈ entries, other.admits t entry.2 = true) →
      other.accepts t false element = true) :
    IsPrincipal t (.container key element) (.array entries) := by
  intro target hadmits
  cases target with
  | mixed => rfl
  | container other otherElement =>
      rw [Ty.admits_array] at hadmits
      exact Ty.accepts_container.mpr ⟨hkeys other fun entry hentry => (hadmits entry hentry).1,
        helement otherElement fun entry hentry => (hadmits entry hentry).2⟩
  | _ => cases hadmits

/-- A guess spells a type that is principal for the value. -/
lemma exists_isPrincipal (v : Value) (h : ∀ name ∈ v.classNames, NamesClass t name) :
    ∃ type, Spells t v.guess type ∧ IsPrincipal t type v := by
  induction v using Value.ind with
  | simple v hsimple => exact exists_isPrincipal_simple hsimple h
  | array entries ih =>
      have helement : ∀ entry ∈ entries,
          ∃ type, Spells t entry.2.guess type ∧ IsPrincipal t type entry.2 := by
        intro entry hentry
        refine ih entry hentry fun name hname => h name ?_
        exact Value.mem_entryNames.mpr ⟨entry, hentry, hname⟩
      cases entries with
      | nil =>
          have hmixed := (@spells_of_isBasic t .mixed rfl).insertTag .either
          refine ⟨.container .either .mixed, hmixed, isPrincipal_container (fun other _ => ?_) ?_⟩
          · cases other <;> rfl
          · exact fun other _ => Ty.accepts_lax_mixed t other
      | cons entry rest =>
          obtain ⟨type, hspells, hprincipal⟩ :=
            exists_isPrincipal_shape (helement entry List.mem_cons_self)
          rw [Value.guess_cons]
          exact ⟨_, hspells.insertTag _,
            isPrincipal_container (fun _ => keysOf_compatible (List.cons_ne_nil _ _)) hprincipal⟩

/-- A spelling of a type is compiled to the type, also in a cache that is not empty. -/
lemma Spells.exists_compile {cache : TypeCache} (hcache : cache.Sound t) {text : List Char}
    {type : Ty} (h : Spells t text type) :
    ∃ made, (cache.compile t (String.ofList text)).1 = .ok made ∧ made.type = type := by
  have hcompile := (TypeCache.compile_sound hcache (String.ofList text)).1
  rw [h.meaning_eq] at hcompile
  cases hresult : (cache.compile t (String.ofList text)).1 with
  | error fault =>
      rw [hresult] at hcompile
      cases hcompile
  | ok made =>
      rw [hresult] at hcompile
      exact ⟨made, rfl, Except.ok.inj hcompile⟩

end Descriptor

/-- **A guessed descriptor is principal.** Let every object in a value be of a class of the table under
a name that a descriptor may have and that is no word of its own, `array` included. Then, after any
sequence of requests to a session that started with an empty cache, the guess for the value compiles,
and every type that admits the value accepts the compiled type in a lax check. -/
theorem guess_is_principal (classes : ClassTable) (requests : List Request) (v : Value) :
    let s := requests.foldl Session.serve { classes := classes }
    (∀ name ∈ v.classNames, Descriptor.IsName name.toList ∧ (∃ id, s.classes.idOf? name = some id) ∧
      Text.lowerAscii name ∉ Descriptor.reservedWords) →
    ∃ made, (s.cache.compile s.classes (String.ofList v.guess)).1 = .ok made ∧
      ∀ target : Ty, target.admits s.classes v = true →
        target.accepts s.classes false made.type = true := by
  intro s hnames
  obtain ⟨type, hspells, hprincipal⟩ := Descriptor.exists_isPrincipal v hnames
  have hsound : s.cache.Sound s.classes :=
    Session.sound_foldl (TypeCache.sound_empty classes) requests
  obtain ⟨made, hcompile, rfl⟩ := hspells.exists_compile hsound
  exact ⟨made, hcompile, hprincipal⟩

/-- Circles under names are guessed as such, and shapes under any keys accept what is guessed. -/
theorem guess_is_principal_circles :
    let v : Value := .array [(.string "left", .object "\\circle"), (.string "right", .object "\\circle")]
    let target := Ty.container .either (.ofClass 0 "Shape")
    v.guess = "\\circle[string]".toList ∧ target.admits shapeTable v = true ∧
      ∃ made, (TypeCache.compile {} shapeTable (String.ofList v.guess)).1 = .ok made ∧
        target.accepts shapeTable false made.type = true := by
  intro v target
  have hadmits : target.admits shapeTable v = true := by decide +kernel
  have hnames : ∀ name ∈ v.classNames, Descriptor.IsName name.toList ∧
      (∃ id, shapeTable.idOf? name = some id) ∧
      Text.lowerAscii name ∉ Descriptor.reservedWords := by
    intro name hname
    have hcircle : name = "\\circle" := by
      simpa [v, Value.classNames, Value.entryNames] using hname
    subst hcircle
    exact ⟨⟨'\\', "circle".toList, by decide, by decide, List.all_eq_true.mp (by decide)⟩,
      ⟨1, by decide +kernel⟩, by decide⟩
  obtain ⟨made, hcompile, hprincipal⟩ := guess_is_principal shapeTable [] v hnames
  exact ⟨by decide +kernel, hadmits, made, hcompile, hprincipal target hadmits⟩

-- elements that are guessed differently count as anything, which a lax check accepts for shapes
example :
    (Value.array [(.int 0, .null), (.int 1, .object "Circle")]).guess = "mixed[int]".toList ∧
      (Ty.container .int (.ofClass 0 "Shape")).accepts shapeTable false (.container .int .mixed) =
        true := by
  decide +kernel

end ScriptCheck
