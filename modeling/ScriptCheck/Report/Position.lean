/-!
Places in source files.
-/

namespace ScriptCheck

/-- A place in a source file: the number of bytes before it, and the file's name. -/
structure Position where
  offset : Nat
  file : String
  deriving DecidableEq, Repr, Inhabited

/-- The place of what stands in no file. -/
def Position.nowhere : Position := ⟨0, "<null>"⟩

/-- The place of what is declared before any file is read. -/
def Position.builtin : Position := ⟨0, "<builtin>"⟩

end ScriptCheck
