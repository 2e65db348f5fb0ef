import ScriptCheck.Text.Blank
import ScriptCheck.Text.Caseless
import ScriptCheck.Token.Kind

/-!
The lexemes of a source: the pieces of text that are read as one token or passed over.

Each recogniser looks at the start of a text and gives the number of characters of its lexeme
there, if one starts there. `lexeme` tries them in a fixed order; the first that applies decides.

* blanks, the file marks `<?php` and `?>`, and comments are passed over;
* `/*.` opens and `.*/` closes an annotation, so neither is a comment or a dot;
* a comment or string that is not closed is no lexeme.
-/

namespace ScriptCheck.Lexeme

/-! ### Characters of names and numbers -/

/-- A character a name may start with. -/
def isNameStart (c : Char) : Bool :=
  ('a' ≤ c && c ≤ 'z') || ('A' ≤ c && c ≤ 'Z') || c == '_'

/-- A decimal digit. -/
def isDigit (c : Char) : Bool :=
  '0' ≤ c && c ≤ '9'

/-- A character a name may go on with. -/
def isNameRest (c : Char) : Bool :=
  isNameStart c || isDigit c

/-! ### Recognisers -/

/-- The given spelling. -/
def literal (spelling : String) (cs : List Char) : Option Nat :=
  if spelling.toList.isPrefixOf cs then some spelling.toList.length else none

/-- One or more blanks. -/
def blanks (cs : List Char) : Option Nat :=
  match (cs.takeWhile Text.isBlank).length with
  | 0 => none
  | n => some n

/-- The number of characters up to and including the first `*/`. -/
def throughClose : List Char → Option Nat
  | '*' :: '/' :: _ => some 2
  | _ :: rest => (throughClose rest).map (· + 1)
  | [] => none

/-- A comment from `/*` to the next `*/`. -/
def blockComment : List Char → Option Nat
  | '/' :: '*' :: rest => (throughClose rest).map (· + 2)
  | _ => none

/-- A comment from `//` or `#` to the end of the line. -/
def lineComment : List Char → Option Nat
  | '/' :: '/' :: rest => some (2 + (rest.takeWhile (· != '\n')).length)
  | '#' :: rest => some (1 + (rest.takeWhile (· != '\n')).length)
  | _ => none

/-- A simple name: a letter or underscore, then letters, digits and underscores. -/
def simpleName : List Char → Option Nat
  | c :: rest => if isNameStart c then some (1 + (rest.takeWhile isNameRest).length) else none
  | [] => none

/-- A variable: a dollar sign and a simple name. -/
def dollarName : List Char → Option Nat
  | '$' :: rest => (simpleName rest).map (· + 1)
  | _ => none

/-- How far a name goes on: over characters of the name at hand, and over a separator where another
simple name follows it. -/
def nameTail : List Char → Nat
  | '\\' :: c :: rest => if isNameStart c then 2 + nameTail rest else 0
  | c :: rest => if isNameRest c then 1 + nameTail rest else 0
  | [] => 0

/-- A name: simple names joined by separators, with or without a separator in front. -/
def name : List Char → Option Nat
  | '\\' :: c :: rest => if isNameStart c then some (2 + nameTail rest) else none
  | c :: rest => if isNameStart c then some (1 + nameTail rest) else none
  | [] => none

/-- A number: digits, with or without a point and more digits. -/
def number (cs : List Char) : Option Nat :=
  match (cs.takeWhile isDigit).length with
  | 0 => none
  | n => match cs.drop n with
    | '.' :: rest => match (rest.takeWhile isDigit).length with
      | 0 => some n
      | m => some (n + 1 + m)
    | _ => some n

/-- The number of characters up to and including the first quote that no backslash precedes. -/
def throughQuote (quote : Char) : List Char → Option Nat
  | [] => none
  | '\\' :: rest => match rest with
    | [] => none
    | _ :: rest => (throughQuote quote rest).map (· + 2)
  | c :: rest => if c == quote then some 1 else (throughQuote quote rest).map (· + 1)

/-- A string between two quotes of the given kind. -/
def quoted (quote : Char) : List Char → Option Nat
  | c :: rest => if c == quote then (throughQuote quote rest).map (· + 1) else none
  | [] => none

/-! ### String literals -/

/-- The character that a backslash and the given one stand for between quotes, if they stand for
one: a backslash, the quote itself, and between double quotes also a line feed, tab, carriage
return or dollar sign. -/
def escape (quote c : Char) : Option Char :=
  if c == '\\' then some '\\'
  else if c == quote then some quote
  else if quote == '"' then
    if c == 'n' then some '\n'
    else if c == 't' then some '\t'
    else if c == 'r' then some '\r'
    else if c == '$' then some '$'
    else none
  else none

/-- The text that the inside of a string literal stands for. A backslash that starts no escape
stands for itself. -/
def unescape (quote : Char) : List Char → List Char
  | [] => []
  | '\\' :: c :: rest => match escape quote c with
    | some e => e :: unescape quote rest
    | none => '\\' :: unescape quote (c :: rest)
  | c :: rest => c :: unescape quote rest

/-- The text of a whole string literal, quotes included. -/
def literalText (quote : Char) (cs : List Char) : String :=
  String.ofList (unescape quote (cs.drop 1).dropLast)

/-! ### The lexeme at the start of a text -/

/-- What a lexeme is read as. -/
inductive Reading where
  | nothing
  | token (kind : Kind) (value : String)
  deriving DecidableEq, Repr

/-- The kind of a name: a reserved word, or else a plain name. -/
def nameKind (name : String) : Kind :=
  (Kind.reservedWords.lookup (Text.lowerAscii name)).getD .name

/-- One rule: a recogniser, and the reading of the lexeme's characters. -/
structure Rule where
  length : List Char → Option Nat
  reading : List Char → Reading

/-- The rule that passes over what is recognised. -/
def Rule.skip (length : List Char → Option Nat) : Rule :=
  ⟨length, fun _ => .nothing⟩

/-- The rule for a token with a fixed spelling. -/
def Rule.fixed (spelling : String) (kind : Kind) : Rule :=
  ⟨literal spelling, fun _ => .token kind spelling⟩

/-- The rules, in the order in which they are tried. -/
def rules : List Rule :=
  [.skip (literal "<?php"), .skip (literal "?>"), .skip blanks,
    .fixed "/*." .openNote, .fixed ".*/" .closeNote,
    .skip blockComment, .skip lineComment,
    ⟨dollarName, fun cs => .token .var (String.ofList (cs.drop 1))⟩,
    ⟨name, fun cs => .token (nameKind (String.ofList cs)) (String.ofList cs)⟩,
    ⟨number, fun cs => .token .number (String.ofList cs)⟩,
    ⟨quoted '"', fun cs => .token .text (literalText '"' cs)⟩,
    ⟨quoted '\'', fun cs => .token .text (literalText '\'' cs)⟩]
    ++ Kind.operators.map fun op => .fixed op.1 op.2

/-- The reading and length of the lexeme at the start of a text, by the first rule that applies. -/
def first (cs : List Char) : Option (Reading × Nat) :=
  rules.findSome? fun rule =>
    (rule.length cs).map fun n => (rule.reading (cs.take n), n)

end ScriptCheck.Lexeme
