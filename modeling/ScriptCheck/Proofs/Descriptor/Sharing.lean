import ScriptCheck.Proofs.Descriptor.Transparency

/-!
Compiled descriptors are shared.

An instance of a type is made once for every modern spelling. `TypeCache.Shared` says how the texts of
a cache hang together: every text is bound to the instance of its modern spelling, different
spellings have different instances, and the element of a container is the instance of the spelling
without the outermost tag. Texts are only added (`TypeCache.Keeps`).

* `Shared.push`: a new text may be bound to a new instance, or to the one of its modern spelling.
* `shared_compile`: so compiling keeps a cache shared, whichever of its texts are there already.
* `instances_are_shared`: and so does every sequence of requests.
-/

namespace ScriptCheck

namespace Descriptor

/-- A modern spelling determines its name and its tags. -/
lemma modern_injective {name name' : List Char} {tags tags' : List Keys} (hname : IsName name)
    (hname' : IsName name') (h : name ++ writeTags tags = name' ++ writeTags tags') :
    name = name' ∧ tags = tags' := by
  have hparse : parse? (name ++ writeTags tags) = some (name, tags) :=
    parse?_eq_some_iff.mpr ⟨hname, rfl⟩
  rw [h, parse?_eq_some_iff.mpr ⟨hname', rfl⟩] at hparse
  cases hparse
  exact ⟨rfl, rfl⟩

/-- The modern spelling of a descriptor that can be read is its own modern spelling. -/
lemma modernText_idem {descriptor : String} {name : List Char} {tags : List Keys}
    (h : parse? (modernText descriptor) = some (name, tags)) :
    modernText (String.ofList (modernText descriptor)) = modernText descriptor := by
  obtain ⟨hname, htext⟩ := parse?_eq_some_iff.mp h
  rw [htext]
  exact modernText_modern hname.isNameRest (not_isArrayWord_of_parse? h) tags

end Descriptor

namespace TypeCache

open Descriptor

variable {cache cache' cache'' : TypeCache} {t : ClassTable}

/-! ### Texts are only added -/

/-- Whatever is bound in the first cache is bound to the same instance in the second. -/
def Keeps (cache cache' : TypeCache) : Prop :=
  ∀ descriptor made, cache.find? descriptor = some made → cache'.find? descriptor = some made

lemma Keeps.refl (cache : TypeCache) : cache.Keeps cache :=
  fun _ _ h => h

lemma Keeps.trans (h : cache.Keeps cache') (h' : cache'.Keeps cache'') : cache.Keeps cache'' :=
  fun descriptor made hfind => h' descriptor made (h descriptor made hfind)

/-- The cache with one more text. -/
def push (cache : TypeCache) (descriptor : String) (made : Interned) (issued : Nat) : TypeCache :=
  ⟨cache.entries ++ [(descriptor, made)], issued⟩

lemma find?_push (cache : TypeCache) (descriptor : String) (made : Interned) (issued : Nat)
    (other : String) :
    (cache.push descriptor made issued).find? other =
      (cache.find? other).or (if other = descriptor then some made else none) := by
  rw [find?, push, List.lookup_append, find?, List.lookup_cons]
  by_cases h : other = descriptor
  · simp [h]
  · rw [beq_false_of_ne h, if_neg h]
    rfl

lemma keeps_push (cache : TypeCache) (descriptor : String) (made : Interned) (issued : Nat) :
    cache.Keeps (cache.push descriptor made issued) := by
  intro other found hfind
  rw [find?_push, hfind]
  rfl

lemma find?_push_self {descriptor : String} (h : cache.find? descriptor = none) {made : Interned}
    {issued : Nat} : (cache.push descriptor made issued).find? descriptor = some made := by
  rw [find?_push, h, if_pos rfl]
  rfl

lemma find?_push_eq_some {descriptor other : String} {made found : Interned} {issued : Nat}
    (h : (cache.push descriptor made issued).find? other = some found) :
    cache.find? other = some found ∨ other = descriptor ∧ found = made := by
  rw [find?_push] at h
  cases hold : cache.find? other with
  | some old =>
      rw [hold] at h
      exact .inl h
  | none =>
      rw [hold, Option.none_or] at h
      split at h
      case isTrue heq => exact .inr ⟨heq, (Option.some.inj h).symm⟩
      case isFalse => cases h

/-! ### Shared caches -/

/-- The instance is a container whose element is the instance bound to a text. -/
def IsContainerOf (cache : TypeCache) (key : Keys) (descriptor : String) (made : Interned) : Prop :=
  ∃ inner, cache.find? descriptor = some inner ∧ made.type = .container key inner.type ∧
    made.element = some inner.number

lemma IsContainerOf.keeps {key : Keys} {descriptor : String} {made : Interned}
    (h : cache.IsContainerOf key descriptor made) (hkeeps : cache.Keeps cache') :
    cache'.IsContainerOf key descriptor made := by
  obtain ⟨inner, hfind, hmade⟩ := h
  exact ⟨inner, hkeeps _ _ hfind, hmade⟩

/-- The texts of the cache share instances wherever they can. -/
structure Shared (cache : TypeCache) : Prop where
  /-- A text is bound to the instance of its modern spelling. -/
  modern : ∀ descriptor made, cache.find? descriptor = some made →
    cache.find? (String.ofList (modernText descriptor)) = some made
  /-- The element of a container is the instance of the spelling without the outermost tag. -/
  element : ∀ name key tags made, IsName name → ¬ IsArrayWord name →
    cache.find? (String.ofList (name ++ writeTags (key :: tags))) = some made →
    cache.IsContainerOf key (String.ofList (name ++ writeTags tags)) made
  /-- Numbers are given out one after another. -/
  issued : ∀ descriptor made, cache.find? descriptor = some made → made.number < cache.issued
  /-- An instance has one modern spelling. -/
  spelling : ∀ descriptor descriptor' made made', cache.find? descriptor = some made →
    cache.find? descriptor' = some made' → made.number = made'.number →
    modernText descriptor = modernText descriptor'

lemma shared_empty : Shared {} :=
  ⟨nofun, nofun, nofun, nofun⟩

/-- One more text: it has its modern spelling's instance, or it is a modern spelling itself and has a
new one. -/
lemma Shared.push (h : cache.Shared) {descriptor : String} {made : Interned} {issued : Nat}
    {name : List Char} {tags : List Keys}
    (hparse : parse? (modernText descriptor) = some (name, tags)) (hnew : cache.find? descriptor = none) (hissued : cache.issued ≤ issued)
    (hnumber : made.number < issued)
    (hmodern : cache.find? (String.ofList (modernText descriptor)) = some made ∨
      String.ofList (modernText descriptor) = descriptor ∧ cache.issued ≤ made.number)
    (helement : ∀ name key tags, IsName name → ¬ IsArrayWord name →
      descriptor = String.ofList (name ++ writeTags (key :: tags)) →
      cache.IsContainerOf key (String.ofList (name ++ writeTags tags)) made) :
    (cache.push descriptor made issued).Shared := by
  have hkeeps := cache.keeps_push descriptor made issued
  -- an old text with the instance of the new one has its modern spelling
  have hspelling : ∀ other found, cache.find? other = some found → found.number = made.number →
      modernText other = modernText descriptor := by
    intro other found hfound heq
    rcases hmodern with hfind | ⟨-, hle⟩
    · exact (h.spelling _ _ _ _ hfound hfind heq).trans (modernText_idem hparse)
    · have hlt := h.issued _ _ hfound
      omega
  refine ⟨?_, ?_, ?_, ?_⟩
  · intro other found hfound
    rcases find?_push_eq_some hfound with hold | ⟨rfl, rfl⟩
    · exact hkeeps _ _ (h.modern _ _ hold)
    · rcases hmodern with hfind | ⟨heq, -⟩
      · exact hkeeps _ _ hfind
      · rw [heq]
        exact find?_push_self hnew
  · intro name key tags found hname harray hfound
    rcases find?_push_eq_some hfound with hold | ⟨heq, rfl⟩
    · exact (h.element _ _ _ _ hname harray hold).keeps hkeeps
    · exact (helement _ _ _ hname harray heq.symm).keeps hkeeps
  · intro other found hfound
    rcases find?_push_eq_some hfound with hold | ⟨rfl, rfl⟩
    · exact (h.issued _ _ hold).trans_le hissued
    · exact hnumber
  · intro other other' found found' hfound hfound' heq
    rcases find?_push_eq_some hfound with hold | ⟨rfl, rfl⟩
    · rcases find?_push_eq_some hfound' with hold' | ⟨rfl, rfl⟩
      · exact h.spelling _ _ _ _ hold hold' heq
      · exact hspelling _ _ hold heq
    · rcases find?_push_eq_some hfound' with hold' | ⟨rfl, rfl⟩
      · exact (hspelling _ _ hold' heq.symm).symm
      · rfl

/-! ### Compiling -/

/-- The second cache keeps what is in the first, and binds the text to the instance. -/
structure Binds (cache cache' : TypeCache) (descriptor : String) (made : Interned) : Prop where
  shared : cache'.Shared
  keeps : cache.Keeps cache'
  found : cache'.find? descriptor = some made

lemma Shared.binds (h : cache.Shared) {descriptor : String} {made : Interned}
    (hfind : cache.find? descriptor = some made) : cache.Binds cache descriptor made :=
  ⟨h, .refl cache, hfind⟩

lemma Binds.after {descriptor : String} {made : Interned}
    (h : cache'.Binds cache'' descriptor made) (hkeeps : cache.Keeps cache') :
    cache.Binds cache'' descriptor made :=
  ⟨h.shared, hkeeps.trans h.keeps, h.found⟩

/-- The instance of a modern spelling, found or made. -/
lemma Shared.intern (h : cache.Shared) {name : List Char} (hname : IsName name)
    (harray : ¬ IsArrayWord name) (tags : List Keys) (type : Ty) (element : Option Nat)
    (hcontainer : ∀ key more, tags = key :: more → cache.IsContainerOf key
      (String.ofList (name ++ writeTags more)) ⟨cache.issued, type, element⟩) :
    cache.Binds (cache.intern (String.ofList (name ++ writeTags tags)) type element).2
      (String.ofList (name ++ writeTags tags))
      (cache.intern (String.ofList (name ++ writeTags tags)) type element).1 := by
  rw [TypeCache.intern]
  cases hfind : cache.find? (String.ofList (name ++ writeTags tags)) with
  | some made => exact h.binds hfind
  | none =>
      have htext := modernText_modern hname.isNameRest harray tags
      have hparse : parse? (modernText (String.ofList (name ++ writeTags tags))) =
          some (name, tags) := by
        rw [htext]
        exact parse?_eq_some_iff.mpr ⟨hname, rfl⟩
      refine ⟨h.push hparse hfind (Nat.le_succ _) (Nat.lt_succ_self _) (.inr ⟨?_, le_rfl⟩) ?_,
        keeps_push _ _ _ _, find?_push_self hfind⟩
      · rw [htext]
      · intro name' key more hname' _ heq
        obtain ⟨rfl, htags⟩ := modern_injective hname hname' (String.ofList_inj.mp heq)
        exact hcontainer key more htags

/-- The containers around a name: each has the instance made before as its element. -/
lemma Shared.nest (h : cache.Shared) {name : List Char} (hname : IsName name)
    (harray : ¬ IsArrayWord name) {base : Interned}
    (hbase : cache.find? (String.ofList name) = some base) (tags : List Keys) :
    cache.Binds (cache.nest name base tags).2 (String.ofList (name ++ writeTags tags))
      (cache.nest name base tags).1 := by
  induction tags with
  | nil =>
      rw [writeTags, List.flatMap_nil, List.append_nil]
      exact h.binds hbase
  | cons key tags ih =>
      refine (ih.shared.intern hname harray (key :: tags) _ _ ?_).after ih.keeps
      rintro _ _ ⟨⟩
      exact ⟨_, ih.found, rfl, rfl⟩

lemma Shared.compileParsed (h : cache.Shared) {name : List Char} (hname : IsName name)
    (harray : ¬ IsArrayWord name) {tags : List Keys} {made : Interned}
    (hrun : cache.compileParsed t name tags = some (made, cache')) :
    cache.Binds cache' (String.ofList (name ++ writeTags tags)) made := by
  rw [TypeCache.compileParsed] at hrun
  dsimp only at hrun
  split at hrun
  case h_1 base hfind =>
    have hnest := h.nest hname harray hfind tags
    rw [Option.some.inj hrun] at hnest
    exact hnest
  case h_2 hnone =>
    split at hrun
    case h_1 => cases hrun
    case h_2 type _ =>
      -- the name alone is a spelling without tags
      have hintern := h.intern hname harray [] type none (by intro _ _ htags; cases htags)
      rw [writeTags, List.flatMap_nil, List.append_nil] at hintern
      have hnest := (hintern.shared.nest hname harray hintern.found tags).after hintern.keeps
      rw [Option.some.inj hrun] at hnest
      exact hnest

/-- A text is bound to the instance of its modern spelling, unless it is bound already. -/
lemma Shared.bind (h : cache.Shared) {descriptor : String} {made : Interned} {name : List Char}
    {tags : List Keys} (hparse : parse? (modernText descriptor) = some (name, tags))
    (hmade : cache.find? (String.ofList (modernText descriptor)) = some made) :
    cache.Binds (cache.bind descriptor made) descriptor made := by
  rw [TypeCache.bind, isBound]
  cases hfind : cache.find? descriptor with
  | some found =>
      rw [Option.isSome_some, if_pos rfl]
      exact h.binds (hfind.trans ((h.modern _ _ hfind).symm.trans hmade))
  | none =>
      rw [Option.isSome_none, if_neg (by simp)]
      refine ⟨h.push hparse hfind le_rfl (h.issued _ _ hmade) (.inl hmade) ?_, keeps_push _ _ _ _,
        find?_push_self hfind⟩
      -- a modern spelling would be bound
      rintro name' key more hname' harray' rfl
      rw [modernText_modern hname'.isNameRest harray', hfind] at hmade
      cases hmade

/-- **Compiling keeps a cache shared, and what it gives is bound to the text.** -/
lemma shared_compile (h : cache.Shared) (t : ClassTable) (descriptor : String) :
    (cache.compile t descriptor).2.Shared ∧ cache.Keeps (cache.compile t descriptor).2 ∧
      ∀ made, (cache.compile t descriptor).1 = .ok made →
        (cache.compile t descriptor).2.find? descriptor = some made := by
  rw [compile]
  split
  case h_1 made hfind =>
    refine ⟨h, .refl cache, ?_⟩
    rintro _ ⟨⟩
    exact hfind
  case h_2 =>
    dsimp only
    split
    case h_1 => exact ⟨h, .refl cache, by rintro _ ⟨⟩⟩
    case h_2 name tags hparse =>
      have hname := (parse?_eq_some_iff.mp hparse).1
      have htext : modernText descriptor = name ++ writeTags tags := (parse?_eq_some_iff.mp hparse).2
      split
      case h_1 => exact ⟨h, .refl cache, by rintro _ ⟨⟩⟩
      case h_2 made cache' hrun =>
        have hparsed := h.compileParsed hname (not_isArrayWord_of_parse? hparse) hrun
        rw [← htext] at hparsed
        have hbinds := (hparsed.shared.bind hparse hparsed.found).after hparsed.keeps
        refine ⟨hbinds.shared, hbinds.keeps, ?_⟩
        rintro _ ⟨⟩
        exact hbinds.found

end TypeCache

/-! ### Sessions -/

namespace Session

open TypeCache

lemma shared_serve {s : Session} (h : s.cache.Shared) (request : Request) :
    (s.serve request).cache.Shared ∧ s.cache.Keeps (s.serve request).cache := by
  cases request with
  | compile descriptor =>
      obtain ⟨hshared, hkeeps, -⟩ := shared_compile h s.classes descriptor
      exact ⟨hshared, hkeeps⟩
  | addClass decl => exact ⟨h, .refl _⟩

lemma shared_foldl {s : Session} (h : s.cache.Shared) (requests : List Request) :
    (requests.foldl serve s).cache.Shared ∧ s.cache.Keeps (requests.foldl serve s).cache := by
  induction requests generalizing s with
  | nil => exact ⟨h, .refl _⟩
  | cons request requests ih =>
      obtain ⟨hshared, hkeeps⟩ := shared_serve h request
      obtain ⟨hshared', hkeeps'⟩ := ih hshared
      exact ⟨hshared', hkeeps.trans hkeeps'⟩

end Session

/-- **Instances are shared.** After any sequence of requests to a session that started with an empty
cache:
* a text that is bound stays bound to its instance, and compiling it gives that instance, whatever is
  requested later;
* if a name under some tags is bound, and the name is not the word `array`, then the name is bound
  under the tags behind the first, and the instance is a container with that very instance as its
  element;
* every text is bound to the instance of its modern spelling, and two texts have the same instance
  exactly if they have the same modern spelling. -/
theorem instances_are_shared (classes : ClassTable) (requests later : List Request) :
    let s := requests.foldl Session.serve { classes := classes }
    let s' := later.foldl Session.serve s
    (∀ descriptor made, s.cache.find? descriptor = some made →
      s'.cache.find? descriptor = some made ∧
        (s'.cache.compile s'.classes descriptor).1 = .ok made) ∧
    (∀ name key tags made, Descriptor.IsName name → ¬ Descriptor.IsArrayWord name →
      s.cache.find? (String.ofList (name ++ Descriptor.writeTags (key :: tags))) = some made →
      ∃ inner, s.cache.find? (String.ofList (name ++ Descriptor.writeTags tags)) = some inner ∧
        made.type = .container key inner.type ∧ made.element = some inner.number) ∧
    (∀ descriptor made, s.cache.find? descriptor = some made →
      s.cache.find? (String.ofList (Descriptor.modernText descriptor)) = some made) ∧
    ∀ descriptor descriptor' made made', s.cache.find? descriptor = some made →
      s.cache.find? descriptor' = some made' →
      (made.number = made'.number ↔
        Descriptor.modernText descriptor = Descriptor.modernText descriptor') := by
  intro s s'
  obtain ⟨hshared, -⟩ := Session.shared_foldl (s := { classes := classes })
    TypeCache.shared_empty requests
  obtain ⟨-, hkeeps⟩ := Session.shared_foldl hshared later
  refine ⟨fun descriptor made hfind => ?_, hshared.element, hshared.modern, ?_⟩
  · have hfind' := hkeeps _ _ hfind
    refine ⟨hfind', ?_⟩
    rw [TypeCache.compile, hfind']
  · intro descriptor descriptor' made made' hfind hfind'
    refine ⟨hshared.spelling _ _ _ _ hfind hfind', fun heq => ?_⟩
    have hsame := hshared.modern _ _ hfind
    rw [heq, hshared.modern _ _ hfind'] at hsame
    rw [Option.some.inj hsame]

/-- The older form and a text with a blank have the instance of their modern spelling, whose element
is the instance of the name. -/
theorem instances_are_shared_olderForm :
    let s := [Request.compile "array[int]string", .compile " string[int]"].foldl Session.serve
      { classes := {} }
    ∃ made inner, s.cache.find? "array[int]string" = some made ∧
      s.cache.find? " string[int]" = some made ∧ s.cache.find? "string[int]" = some made ∧
      s.cache.find? "string" = some inner ∧ made.type = .container .int inner.type ∧
      made.element = some inner.number ∧
      (((s.serve (.compile "int")).cache.compile {} "array[int]string").1 = .ok made) := by
  intro s
  obtain ⟨hstays, helement, hmodern, -⟩ := instances_are_shared {}
    [.compile "array[int]string", .compile " string[int]"] [.compile "int"]
  have hfinds : s.cache.find? "array[int]string" = some ⟨1, .container .int .string, some 0⟩ ∧
      s.cache.find? " string[int]" = some ⟨1, .container .int .string, some 0⟩ := by
    decide +kernel
  have htext : Descriptor.modernText "array[int]string" = "string[int]".toList := by
    decide +kernel
  have hname : Descriptor.IsName "string".toList :=
    ⟨'s', "tring".toList, rfl, by decide, List.all_eq_true.mp (by decide)⟩
  have hspelled := hmodern _ _ hfinds.1
  rw [htext] at hspelled
  obtain ⟨inner, hinner, htype, hnumber⟩ := helement _ .int [] _ hname (by decide) hspelled
  exact ⟨_, inner, hfinds.1, hfinds.2, hspelled, hinner, htype, hnumber, (hstays _ _ hfinds.1).2⟩

end ScriptCheck
