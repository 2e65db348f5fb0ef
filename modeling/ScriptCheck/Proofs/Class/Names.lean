import Mathlib.Tactic
import ScriptCheck.Class.Table

/-!
Names in a class table that was filled by adding classes.

No two classes of such a table have the same name up to case and leading separators
(`Built.keys_nodup`), so every class is found by its own name (`Built.idOf?_nameOf`). On the other
hand a table is finite, so there is always a name that no class has (`idOf?_freshName`).
-/

namespace ScriptCheck.ClassTable

/-- A table that was filled by adding classes, one after another. -/
inductive Built : ClassTable → Prop
  | empty : Built {}
  | add {t : ClassTable} (decl : ClassDef) : Built t → Built (t.add decl).2

/-- The names of the classes as they are compared. -/
def keys (t : ClassTable) : List String :=
  t.defs.map fun decl => Text.nameKey decl.name

lemma idOf?_eq_none_iff {t : ClassTable} {name : String} :
    t.idOf? name = none ↔ Text.nameKey name ∉ t.keys := by
  rw [idOf?, List.findIdx?_eq_none_iff, keys]
  constructor
  · intro h hmem
    obtain ⟨decl, hdecl, hkey⟩ := List.mem_map.mp hmem
    simpa [hkey] using h decl hdecl
  · intro h decl hdecl
    rw [beq_eq_false_iff_ne]
    exact fun hkey => h (hkey ▸ List.mem_map_of_mem hdecl)

lemma keys_nodup_add {t : ClassTable} (h : t.keys.Nodup) (decl : ClassDef) :
    (t.add decl).2.keys.Nodup := by
  rw [ClassTable.add]
  cases hfind : t.idOf? decl.name with
  | some id => exact h
  | none =>
      have hnew := idOf?_eq_none_iff.mp hfind
      have hkeys : keys ⟨t.defs ++ [decl]⟩ = t.keys ++ [Text.nameKey decl.name] := by
        simp [keys]
      rw [hkeys, List.nodup_append]
      refine ⟨h, by simp, fun k hk k' hk' => ?_⟩
      obtain rfl := List.mem_singleton.mp hk'
      exact fun heq => hnew (heq ▸ hk)

lemma Built.keys_nodup {t : ClassTable} (ht : t.Built) : t.keys.Nodup := by
  induction ht with
  | empty => simp [keys]
  | add decl _ ih => exact keys_nodup_add ih decl

/-- If all names are different, every class is found by its name. -/
lemma idOf?_nameOf_of_nodup {t : ClassTable} (h : t.keys.Nodup) {id : ClassId}
    (hid : id < t.size) : t.idOf? (t.nameOf id) = some id := by
  have hlen : id < t.defs.length := hid
  have hname : t.nameOf id = (t.defs.get ⟨id, hlen⟩).name := by
    simp [nameOf, get?, hlen]
  rw [idOf?, List.findIdx?_eq_some_iff_getElem]
  refine ⟨hlen, by simp [hname], fun j hj => ?_⟩
  -- an earlier class of the same name would be a repeated key
  have hlast : id < t.keys.length := by rw [keys, List.length_map]; exact hlen
  have hne := List.pairwise_iff_getElem.mp h j id (Nat.lt_trans hj hlast) hlast hj
  simpa [keys, hname] using hne

/-- In a built table every class is found by its name. -/
lemma Built.idOf?_nameOf {t : ClassTable} (ht : t.Built) {id : ClassId} (hid : id < t.size) :
    t.idOf? (t.nameOf id) = some id :=
  idOf?_nameOf_of_nodup ht.keys_nodup hid

/-! ### A name that is not taken -/

/-- A name longer than every name of the table. -/
def freshName (t : ClassTable) : String :=
  String.ofList (List.replicate ((t.keys.map String.length).sum + 1) 'a')

lemma nameKey_replicate (n : Nat) :
    Text.nameKey (String.ofList (List.replicate n 'a')) = String.ofList (List.replicate n 'a') := by
  have hdrop : (List.replicate n 'a').dropWhile (· == '\\') = List.replicate n 'a' := by
    cases n <;> simp [List.replicate_succ]
  simp [Text.nameKey, Text.dropSeparators, Text.lowerAscii, hdrop]

/-- No class has the fresh name. -/
lemma idOf?_freshName (t : ClassTable) : t.idOf? t.freshName = none := by
  rw [idOf?_eq_none_iff, freshName, nameKey_replicate]
  intro hmem
  have hle := List.le_sum_of_mem (List.mem_map_of_mem (f := String.length) hmem)
  simp at hle

end ScriptCheck.ClassTable
