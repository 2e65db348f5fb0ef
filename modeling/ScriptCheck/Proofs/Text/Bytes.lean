import Mathlib.Tactic
import ScriptCheck.Text.Bytes

/-!
Bytes and slices of a text.

Places in a text are given as byte offsets. `slice?` gives the characters between two offsets; it is
undefined if an offset lies beyond the end or inside a character.
-/

namespace ScriptCheck.Text

/-! ### Length in bytes -/

lemma foldl_byteCount (n : Nat) (cs : List Char) :
    cs.foldl (fun n c => n + c.utf8Size) n = n + byteCount cs := by
  rw [byteCount]
  induction cs generalizing n with
  | nil => rfl
  | cons c cs ih =>
      simp only [List.foldl_cons]
      rw [ih, ih (0 + c.utf8Size)]
      omega

@[simp] lemma byteCount_nil : byteCount [] = 0 := rfl

@[simp] lemma byteCount_cons (c : Char) (cs : List Char) :
    byteCount (c :: cs) = c.utf8Size + byteCount cs := by
  rw [byteCount, List.foldl_cons, foldl_byteCount, Nat.zero_add]

@[simp] lemma byteCount_append (cs cs' : List Char) :
    byteCount (cs ++ cs') = byteCount cs + byteCount cs' := by
  rw [byteCount, List.foldl_append, ← byteCount, foldl_byteCount]

lemma byteCount_pos {cs : List Char} (h : cs ≠ []) : 0 < byteCount cs := by
  obtain ⟨c, cs, rfl⟩ := List.exists_cons_of_ne_nil h
  rw [byteCount_cons]
  exact Nat.add_pos_left c.utf8Size_pos _

/-! ### Slices -/

/-- The text from a byte offset on. -/
def dropBytes? : Nat → List Char → Option (List Char)
  | 0, cs => some cs
  | _ + 1, [] => none
  | n + 1, c :: cs => if c.utf8Size ≤ n + 1 then dropBytes? (n + 1 - c.utf8Size) cs else none

/-- The text up to a byte offset. -/
def takeBytes? : Nat → List Char → Option (List Char)
  | 0, _ => some []
  | _ + 1, [] => none
  | n + 1, c :: cs =>
      if c.utf8Size ≤ n + 1 then (takeBytes? (n + 1 - c.utf8Size) cs).map (c :: ·) else none

/-- The text between two byte offsets. -/
def slice? (cs : List Char) (start stop : Nat) : Option (List Char) :=
  if start ≤ stop then (dropBytes? start cs).bind (takeBytes? (stop - start)) else none

lemma dropBytes?_cons (c : Char) (cs : List Char) (n : Nat) :
    dropBytes? (c.utf8Size + n) (c :: cs) = dropBytes? n cs := by
  obtain ⟨k, hk⟩ : ∃ k, c.utf8Size + n = k + 1 :=
    Nat.exists_eq_add_one.mpr (Nat.add_pos_left c.utf8Size_pos _)
  rw [hk, dropBytes?, if_pos (by omega), ← hk, Nat.add_sub_cancel_left]

lemma takeBytes?_cons (c : Char) (cs : List Char) (n : Nat) :
    takeBytes? (c.utf8Size + n) (c :: cs) = (takeBytes? n cs).map (c :: ·) := by
  obtain ⟨k, hk⟩ : ∃ k, c.utf8Size + n = k + 1 :=
    Nat.exists_eq_add_one.mpr (Nat.add_pos_left c.utf8Size_pos _)
  rw [hk, takeBytes?, if_pos (by omega), ← hk, Nat.add_sub_cancel_left]

lemma dropBytes?_append (cs cs' : List Char) : dropBytes? (byteCount cs) (cs ++ cs') = some cs' := by
  induction cs with
  | nil => rw [byteCount_nil, List.nil_append, dropBytes?]
  | cons c cs ih => rw [byteCount_cons, List.cons_append, dropBytes?_cons, ih]

lemma takeBytes?_append (cs cs' : List Char) : takeBytes? (byteCount cs) (cs ++ cs') = some cs := by
  induction cs with
  | nil => rw [byteCount_nil, takeBytes?]
  | cons c cs ih => rw [byteCount_cons, List.cons_append, takeBytes?_cons, ih, Option.map_some]

/-- A part of a text is its slice between the bytes before it and the bytes through it. -/
lemma slice?_append (before part after : List Char) :
    slice? (before ++ (part ++ after)) (byteCount before) (byteCount before + byteCount part) =
      some part := by
  rw [slice?, if_pos (Nat.le_add_right _ _), dropBytes?_append, Option.bind_some,
    Nat.add_sub_cancel_left, takeBytes?_append]

end ScriptCheck.Text
