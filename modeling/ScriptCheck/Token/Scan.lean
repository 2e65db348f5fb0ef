import ScriptCheck.Report.Cause
import ScriptCheck.Text.Bytes
import ScriptCheck.Token.Lexeme

/-!
The tokens of a source.

`scan` reads a source from left to right, lexeme by lexeme. The tokens keep the byte offsets of
their lexemes, and an end token stands at the end of the source. A character at which no lexeme
starts is a fault.
-/

namespace ScriptCheck

/-- A token: its kind, its text, and the byte offsets where its lexeme starts and ends. -/
structure Token where
  kind : Kind
  value : String
  start : Nat
  stop : Nat
  deriving DecidableEq, Repr, Inhabited

namespace Token

/-- The token at the end of a source of the given length. -/
def ending (length : Nat) : Token := ⟨.eof, "EOF", length, length⟩

/-- A token as text. -/
def display (s : Token) : String :=
  "Symbol \x7b\nkind: " ++ s.kind.label ++ ",\nvalue: " ++ s.value ++ "\x7d"

end Token

/-- The name of a source that has no file. -/
def unnamedFile : String := "shell"

/-- Reads the tokens of a text that starts at the given offset. The first `covered` characters
belong to a lexeme already read. -/
def scanFrom (file : String) : (offset covered : Nat) → List Char → Except Fault (List Token)
  | offset, _, [] => .ok [.ending offset]
  | offset, covered + 1, c :: rest => scanFrom file (offset + c.utf8Size) covered rest
  | offset, 0, c :: rest =>
      match Lexeme.first (c :: rest) with
      | none => .error ⟨.strayCharacter (String.singleton c), ⟨offset, file⟩⟩
      | some (.nothing, n) => scanFrom file (offset + c.utf8Size) (n - 1) rest
      | some (.token kind value, n) =>
          match scanFrom file (offset + c.utf8Size) (n - 1) rest with
          | .ok tokens =>
              .ok (⟨kind, value, offset, offset + Text.byteCount ((c :: rest).take n)⟩ :: tokens)
          | .error fault => .error fault

/-- The tokens of a source, ended by one end token. -/
def scan (file : String) (source : List Char) : Except Fault (List Token) :=
  scanFrom file 0 0 source

end ScriptCheck
