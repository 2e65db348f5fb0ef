import ScriptCheck.Token.Scan

/-!
A place in a sequence of tokens.

A cursor moves forward one token at a time and stops at the end token. Besides single steps it can
pass over a whole block in braces, and over a broken statement.
-/

namespace ScriptCheck

/-- A sequence of tokens of one file, and the place of the token to be read next. -/
structure Cursor where
  file : String
  tokens : Array Token
  index : Nat := 0
  deriving DecidableEq, Repr, Inhabited

namespace Cursor

/-- The token to be read next; the last one if there is none. -/
def current (c : Cursor) : Token :=
  match c.tokens[c.index]? with
  | some token => token
  | none => (c.tokens.back?).getD default

/-- The kind of the token to be read next. -/
def kind (c : Cursor) : Kind :=
  c.current.kind

/-- The token some places ahead. -/
def ahead? (c : Cursor) (n : Nat) : Option Token :=
  c.tokens[c.index + n]?

/-- The kind of the token some places ahead. -/
def kindAhead (c : Cursor) (n : Nat) : Kind :=
  ((c.ahead? n).map (·.kind)).getD .eof

/-- The position of the token to be read next. -/
def position (c : Cursor) : Position :=
  ⟨c.current.start, c.file⟩

/-- The tokens from the cursor on. -/
def rest (c : Cursor) : List Token :=
  c.tokens.toList.drop c.index

/-- The number of tokens from the cursor on. -/
def remaining (c : Cursor) : Nat :=
  c.tokens.size - c.index

/-- Moves over one token, but not over the end token. -/
def advance (c : Cursor) : Cursor :=
  if c.kind == .eof then c else { c with index := c.index + 1 }

/-- Moves over a token of the given kind, if that is the one to be read next. -/
def pass? (c : Cursor) (kind : Kind) : Option Cursor :=
  if c.kind == kind then some c.advance else none

/-- Moves to a place, at most to the last token. -/
def moveTo (c : Cursor) (index : Nat) : Cursor :=
  { c with index := min index (c.tokens.size - 1) }

/-- The fault of the token to be read next standing where it does. -/
def rejection (c : Cursor) : Fault :=
  ⟨.unexpectedToken c.current.value, c.position⟩

/-- The fault of another kind of token being due. -/
def missing (c : Cursor) (kind : Kind) : Fault :=
  ⟨.misplacedToken c.current.value ("expected " ++ kind.label), c.position⟩

/-! ### Blocks and recovery -/

/-- The number of tokens through the brace that closes the given number of open blocks, and
whether it is there. Without it, all tokens before the end token are counted. -/
def throughClose : (depth : Nat) → List Token → Nat × Bool
  | _, [] => (0, false)
  | depth, token :: rest =>
      match token.kind with
      | .eof => (0, false)
      | .closeCurly =>
          if depth ≤ 1 then (1, true)
          else
            let (n, closed) := throughClose (depth - 1) rest
            (n + 1, closed)
      | .openCurly =>
          let (n, closed) := throughClose (depth + 1) rest
          (n + 1, closed)
      | _ =>
          let (n, closed) := throughClose depth rest
          (n + 1, closed)

/-- Passes over a block in braces. -/
def passBlock (c : Cursor) : Except Fault Unit × Cursor :=
  if c.kind == .openCurly then
    let inside := c.advance
    let (n, closed) := throughClose 1 inside.rest
    let after := { inside with index := inside.index + n }
    if closed then (.ok (), after) else (.error after.rejection, after)
  else (.error (c.missing .openCurly), c)

/-- The number of tokens that belong to a broken statement: through its semicolon, or up to the
brace that closes the block around it. -/
def brokenLength : (depth : Nat) → List Token → Nat
  | _, [] => 0
  | depth, token :: rest =>
      match token.kind with
      | .eof => 0
      | .semicolon => if depth = 0 then 1 else brokenLength depth rest + 1
      | .closeCurly => if depth = 0 then 0 else brokenLength (depth - 1) rest + 1
      | .openCurly => brokenLength (depth + 1) rest + 1
      | _ => brokenLength depth rest + 1

/-- Passes over the rest of a broken statement that started at the given place, and over at least
one token of it. -/
def resume (c : Cursor) (start : Nat) : Cursor :=
  let c := if c.index = start then c.advance else c
  { c with index := c.index + brokenLength 0 c.rest }

/-! ### Declarations ahead -/

/-- The tokens after the annotation that starts at the cursor. -/
def afterNote (c : Cursor) : List Token :=
  (c.rest.dropWhile fun token => token.kind != .closeNote && token.kind != .eof).drop 1

/-- The kind of the first of some tokens. -/
def firstKind (tokens : List Token) : Kind :=
  ((tokens.head?).map (·.kind)).getD .eof

/-- The kind of the token after the annotation that starts at the cursor. -/
def kindAfterNote (c : Cursor) : Kind :=
  firstKind c.afterNote

/-- Whether a named function starts at the cursor, with or without an annotation before it. -/
def startsNamedFunction (c : Cursor) : Bool :=
  let ahead := if c.kindAhead 0 == .openNote then c.afterNote else c.rest
  firstKind ahead == .kwFunction && firstKind (ahead.drop 1) == .name

end Cursor

end ScriptCheck
