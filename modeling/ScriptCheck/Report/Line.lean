import ScriptCheck.Text.Bytes

/-!
Lines of a source.

A source is a sequence of lines, each but the last ended by a line feed. `lineAt` finds the line of
a byte offset.
-/

namespace ScriptCheck

/-- The lines of a text, each with its line feed; an empty text has none. -/
def splitLines : List Char → List (List Char)
  | [] => []
  | c :: rest =>
      if c == '\n' then [c] :: splitLines rest
      else match splitLines rest with
        | [] => [[c]]
        | line :: lines => (c :: line) :: lines

/-- A line of a source, with its number from one, and a column in bytes from zero. -/
structure LinePlace where
  number : Nat
  text : List Char
  column : Nat
  deriving DecidableEq, Repr

/-- Finds the line of an offset among lines, the first of which has the given number. -/
def lineAmong (number : Nat) : List (List Char) → Nat → Option LinePlace
  | [], _ => none
  | line :: lines, offset =>
      if offset < Text.byteCount line then some ⟨number, line, offset⟩
      else lineAmong (number + 1) lines (offset - Text.byteCount line)

/-- The line and column of a byte offset. The end of the source counts as the end of the last
line; beyond it there is no line. -/
def lineAt (source : List Char) (offset : Nat) : Option LinePlace :=
  let lines := splitLines source
  match lineAmong 1 lines offset with
  | some place => some place
  | none =>
      if offset = Text.byteCount source then
        let last := lines.getLastD []
        some ⟨max lines.length 1, last, Text.byteCount (last.filter (· != '\n'))⟩
      else none

end ScriptCheck
