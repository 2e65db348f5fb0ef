/-!
The length of a text in bytes.
-/

namespace ScriptCheck.Text

/-- The number of bytes of a text in UTF-8. -/
def byteCount (cs : List Char) : Nat :=
  cs.foldl (fun n c => n + c.utf8Size) 0

end ScriptCheck.Text
