import ScriptCheck.Proofs.Class.Ancestors
import ScriptCheck.Proofs.Class.Names
import ScriptCheck.Ty.Accepts
import ScriptCheck.Ty.Value

/-!
Accepting a type is including its values.

A strict check accepts a source type for a target type exactly if the target admits every value
that the source admits (`accepts_tfae`). The exception are containers with both kinds of keys, which
are accepted for containers with one kind; `KeysAligned` rules them out.

* Soundness, `admits_of_accepts`, is an induction along the check; for classes it is transitivity of
  descent.
* Completeness, `separated_of_not_accepts`, gives for every pair that is not accepted a value
  that tells the types apart. `Ty.sample` is a value of every type, which differs in kind from the
  values of other types; inside a container the value found for the elements is used.

The values found are ones that a program can have (`Value.IsProper`).
-/

namespace ScriptCheck

/-! ### Values that a program can have -/

/-- A number that fits into 64 bits. -/
def IsInt64 (n : Int) : Prop := -2 ^ 63 ≤ n ∧ n < 2 ^ 63

/-- A key that an array can have. -/
def Key.IsProper : Key → Prop
  | .int n => IsInt64 n
  | .string _ => True

/-- A value that a program can have: integers fit into 64 bits, and no array repeats a key. -/
inductive Value.IsProper : Value → Prop
  | null : IsProper .null
  | boolean (b : Bool) : IsProper (.boolean b)
  | int {n : Int} : IsInt64 n → IsProper (.int n)
  | float (bits : UInt64) : IsProper (.float bits)
  | string (s : String) : IsProper (.string s)
  | resource (kind : String) : IsProper (.resource kind)
  | object (className : String) : IsProper (.object className)
  | array {entries : List (Key × Value)} : (entries.map Prod.fst).Nodup →
      (∀ entry ∈ entries, entry.1.IsProper) → (∀ entry ∈ entries, IsProper entry.2) →
      IsProper (.array entries)

lemma Value.IsProper.singleton {k : Key} {v : Value} (hk : k.IsProper) (hv : v.IsProper) :
    (Value.array [(k, v)]).IsProper := by
  refine .array (List.nodup_singleton _) ?_ ?_
  · simpa using hk
  · simpa using hv

/-! ### Hypotheses on types -/

/-- Every class of the type is in the table. -/
def Ty.ClassesIn (t : ClassTable) : Ty → Prop
  | .ofClass id _ => id < t.size
  | .container _ element => element.ClassesIn t
  | _ => True

/-- No container of the source that admits both kinds of keys stands opposite a container of the
target that admits only one kind. -/
def KeysAligned : (target source : Ty) → Prop
  | .container key element, .container sourceKey sourceElement =>
      (sourceKey = .either → key = .either) ∧ KeysAligned element sourceElement
  | _, _ => True

namespace Ty

variable {t : ClassTable}

attribute [simp] admits

lemma admits_array {key : Keys} {element : Ty} {entries : List (Key × Value)} :
    (container key element).admits t (.array entries) = true ↔
      ∀ entry ∈ entries, key.admits entry.1 = true ∧ element.admits t entry.2 = true := by
  simp

lemma admits_object {id : ClassId} {name shown : String} :
    (ofClass id shown).admits t (.object name) = true ↔
      ∃ actual, t.idOf? name = some actual ∧ t.isSubclass actual id = true := by
  rw [admits]
  cases t.idOf? name <;> simp

/-! ### Soundness -/

lemma keys_admits_mono {key sourceKey : Keys} {k : Key}
    (hcompatible : (key == .either || sourceKey == .either || key == sourceKey) = true)
    (haligned : sourceKey = .either → key = .either) (hk : sourceKey.admits k = true) :
    key.admits k = true := by
  cases key <;> cases sourceKey <;> cases k <;> simp_all [Keys.admits]

/-- A value of an accepted type is a value of the target. -/
lemma admits_of_accepts {target source : Ty} (hkeys : KeysAligned target source)
    (h : target.accepts t true source = true) (v : Value) (hv : source.admits t v = true) :
    target.admits t v = true := by
  fun_induction accepts t true target source generalizing v with
  | case1 source => cases v <;> simp [isNullable]
  | case2 target hmixed => simp at h
  | case3 target hmixed => cases v <;> simp_all
  | case4 id name => cases v <;> simp_all [isNullable]
  | case5 id name sourceId sourceName =>
      cases v with
      | null => rfl
      | object className =>
          obtain ⟨actual, hactual, hsub⟩ := admits_object.mp hv
          exact admits_object.mpr ⟨actual, hactual, ClassTable.isSubclass_trans hsub h⟩
      | _ => simp at hv
  | case6 key element sourceKey sourceElement ih =>
      obtain ⟨haligned, hkeys⟩ := hkeys
      rw [Bool.and_eq_true] at h
      cases v with
      | null => rfl
      | array entries =>
          rw [admits_array] at hv ⊢
          intro entry hentry
          obtain ⟨hk, he⟩ := hv entry hentry
          exact ⟨keys_admits_mono h.1 haligned hk, ih hkeys h.2 entry.2 he⟩
      | _ => simp at hv
  | case7 => exact hv
  | case8 => exact hv
  | case9 => exact hv
  | case10 => exact hv
  | case11 => exact hv
  | case12 => exact hv
  | case13 => simp at h

/-! ### Completeness -/

/-- A key that the keys admit. -/
def sampleKey : Keys → Key
  | .string => .string ""
  | _ => .int 0

/-- A value of the type that values of the types of other kinds are not. An object of no class is
one only of the type of all objects. -/
def sample (t : ClassTable) : Ty → Value
  | mixed => .int 0
  | null => .null
  | boolean => .boolean true
  | int => .int 0
  | float => .float 0
  | string => .string ""
  | resource => .resource ""
  | object => .object t.freshName
  | ofClass id _ => .object (t.nameOf id)
  | container _ _ => .array []

lemma isInt64_zero : IsInt64 0 := by
  constructor <;> norm_num

lemma sample_isProper (type : Ty) : (type.sample t).IsProper := by
  cases type with
  | container key element => exact .array (by simp) (by simp) (by simp)
  | mixed => exact .int isInt64_zero
  | int => exact .int isInt64_zero
  | null => exact .null
  | boolean => exact .boolean true
  | float => exact .float 0
  | string => exact .string ""
  | resource => exact .resource ""
  | object => exact .object _
  | ofClass id name => exact .object _

/-- In a built table the sample of a type is one of its values. -/
lemma admits_sample (ht : t.Built) {type : Ty} (htype : type.ClassesIn t) :
    type.admits t (type.sample t) = true := by
  cases type with
  | ofClass id name =>
      exact admits_object.mpr ⟨id, ht.idOf?_nameOf htype, t.isSubclass_refl id⟩
  | _ => simp [sample, isNullable]

lemma sampleKey_isProper {keys : Keys} : (sampleKey keys).IsProper := by
  cases keys <;> first | exact isInt64_zero | trivial

lemma admits_sampleKey (keys : Keys) : keys.admits (sampleKey keys) = true := by
  cases keys <;> rfl

/-- Some value that a program can have is one of the source type and not of the target type. -/
def Separated (t : ClassTable) (target source : Ty) : Prop :=
  ∃ v : Value, v.IsProper ∧ source.admits t v = true ∧ target.admits t v = false

lemma separated_mixed {target : Ty} (h : target ≠ mixed) : Separated t target mixed := by
  cases target with
  | mixed => exact absurd rfl h
  | int => exact ⟨.boolean true, .boolean true, by simp, by simp⟩
  | _ => exact ⟨.int 0, .int isInt64_zero, by simp, by simp⟩

/-- Containers whose elements are told apart are, by an array of one element. -/
lemma separated_elements {key sourceKey : Keys} {element sourceElement : Ty}
    (h : Separated t element sourceElement) :
    Separated t (container key element) (container sourceKey sourceElement) := by
  obtain ⟨v, hproper, hsource, htarget⟩ := h
  refine ⟨.array [(sampleKey sourceKey, v)], .singleton sampleKey_isProper hproper, ?_, ?_⟩
  · simp [admits_sampleKey, hsource]
  · simp [htarget]

/-- Containers of which neither admits the keys of the other are told apart by a key. -/
lemma separated_keys (ht : t.Built) {key sourceKey : Keys} {element sourceElement : Ty}
    (hclasses : sourceElement.ClassesIn t)
    (h : (key == .either || sourceKey == .either || key == sourceKey) = false) :
    Separated t (container key element) (container sourceKey sourceElement) := by
  refine ⟨.array [(sampleKey sourceKey, sourceElement.sample t)],
    .singleton sampleKey_isProper (sample_isProper _), ?_, ?_⟩
  · simp [admits_sampleKey, admits_sample ht hclasses]
  · have hkey : key.admits (sampleKey sourceKey) = false := by
      cases key <;> cases sourceKey <;> simp_all [Keys.admits, sampleKey]
    simp [hkey]

/-- If a type is not accepted for another, some value of it is not one of the other. -/
lemma separated_of_not_accepts (ht : t.Built) {target source : Ty} (hclasses : source.ClassesIn t)
    (h : target.accepts t true source = false) : Separated t target source := by
  fun_induction accepts t true target source with
  | case1 source => simp at h
  | case2 target hmixed => exact separated_mixed hmixed
  | case3 target hmixed => exact ⟨.null, .null, rfl, by simpa using h⟩
  | case4 id name => simp at h
  | case5 id name sourceId sourceName =>
      refine ⟨.object (t.nameOf sourceId), .object _, ?_, ?_⟩
      · exact admits_object.mpr ⟨sourceId, ht.idOf?_nameOf hclasses, t.isSubclass_refl sourceId⟩
      · rw [← Bool.not_eq_true, admits_object, ht.idOf?_nameOf hclasses]
        simpa using h
  | case6 key element sourceKey sourceElement ih =>
      rw [Bool.and_eq_false_iff] at h
      rcases h with h | h
      · exact separated_keys ht hclasses h
      · exact separated_elements (ih hclasses h)
  | case7 => simp at h
  | case8 => simp at h
  | case9 => simp at h
  | case10 => simp at h
  | case11 => simp at h
  | case12 => simp at h
  | case13 target source hmixed hsmixed hsnull hsclass hclass hcontainer hboolean hint hfloat
      hstring hresource hobject =>
      -- types of different kinds: the sample of the source is of another kind than the target
      refine ⟨source.sample t, sample_isProper source, admits_sample ht hclasses, ?_⟩
      cases target with
      | mixed => exact absurd rfl hmixed
      | _ =>
          cases source with
          | mixed => exact absurd rfl hsmixed
          | null => exact absurd rfl hsnull
          | _ =>
              first
              | rfl
              | exact (hsclass _ _ rfl rfl).elim
              | exact (hclass _ _ _ _ rfl rfl).elim
              | exact (hcontainer _ _ _ _ rfl rfl).elim
              | exact (hboolean rfl rfl).elim
              | exact (hint rfl rfl).elim
              | exact (hfloat rfl rfl).elim
              | exact (hstring rfl rfl).elim
              | exact (hresource rfl rfl).elim
              | exact (hobject rfl rfl).elim
              | simp [sample, ClassTable.idOf?_freshName]

end Ty

/-! ### Acceptance is inclusion -/

/-- **A strict check decides inclusion of values.** In a table filled by adding classes, a target
type accepts a source type if and only if every value of the source type is one of the target type;
it is enough to look at the values that a program can have. -/
theorem accepts_tfae (t : ClassTable) (ht : t.Built) (target source : Ty)
    (hclasses : source.ClassesIn t) (hkeys : KeysAligned target source) :
    [target.accepts t true source = true,
      ∀ v : Value, source.admits t v = true → target.admits t v = true,
      ∀ v : Value, v.IsProper → source.admits t v = true → target.admits t v = true].TFAE := by
  tfae_have 1 → 2 := fun h => Ty.admits_of_accepts hkeys h
  tfae_have 2 → 3 := fun h v _ => h v
  tfae_have 3 → 1 := by
    intro h
    by_contra hno
    obtain ⟨v, hproper, hsource, htarget⟩ :=
      Ty.separated_of_not_accepts ht hclasses (Bool.eq_false_iff.mpr hno)
    simp [h v hproper hsource] at htarget
  tfae_finish

/-- A table to which a class and then a subclass of it were added. -/
def shapeTable : ClassTable :=
  ((ClassTable.add {} { name := "Shape", position := ⟨0, "shell"⟩ }).2.add
    { name := "Circle", superclass := some 0, position := ⟨8, "shell"⟩ }).2

/-- Circles under names are accepted where shapes under any keys are expected. -/
theorem accepts_tfae_shapes :
    (Ty.container .either (.ofClass 0 "Shape")).accepts shapeTable true
        (.container .string (.ofClass 1 "Circle")) = true ∧
      [(Ty.container .either (.ofClass 0 "Shape")).accepts shapeTable true
          (.container .string (.ofClass 1 "Circle")) = true,
        ∀ v : Value, (Ty.container .string (.ofClass 1 "Circle")).admits shapeTable v = true →
          (Ty.container .either (.ofClass 0 "Shape")).admits shapeTable v = true,
        ∀ v : Value, v.IsProper →
          (Ty.container .string (.ofClass 1 "Circle")).admits shapeTable v = true →
          (Ty.container .either (.ofClass 0 "Shape")).admits shapeTable v = true].TFAE := by
  have hbuilt : shapeTable.Built := .add _ (.add _ .empty)
  have hclasses : (Ty.container .string (.ofClass 1 "Circle")).ClassesIn shapeTable := by
    show 1 < shapeTable.size
    decide
  have hkeys : KeysAligned (.container .either (.ofClass 0 "Shape"))
      (.container .string (.ofClass 1 "Circle")) := ⟨fun _ => rfl, trivial⟩
  exact ⟨by decide, accepts_tfae shapeTable hbuilt _ _ hclasses hkeys⟩

end ScriptCheck
