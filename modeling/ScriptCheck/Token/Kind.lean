/-!
Kinds of tokens.

A source is read as a sequence of tokens: literals, names, variables, the delimiters of
annotations, operators and reserved words. Reserved words are recognised in any case of the basic
Latin letters.
-/

namespace ScriptCheck

/-- The kind of a token. -/
inductive Kind where
  | eof
  | number
  | text
  | name
  | var
  | openNote
  | closeNote
  | openBracket
  | closeBracket
  | openCurly
  | closeCurly
  | openParen
  | closeParen
  | assign
  | equals
  | identical
  | bang
  | notEquals
  | notIdentical
  | less
  | lessEquals
  | greater
  | greaterEquals
  | or
  | and
  | pipe
  | ampersand
  | dot
  | dotEquals
  | semicolon
  | colon
  | doubleColon
  | question
  | comma
  | arrow
  | doubleArrow
  | plusPlus
  | minusMinus
  | plusEquals
  | minusEquals
  | slashEquals
  | starEquals
  | plus
  | dash
  | slash
  | star
  | percent
  | kwFunction
  | kwReturn
  | kwIf
  | kwElse
  | kwElseIf
  | kwWhile
  | kwDo
  | kwFor
  | kwForeach
  | kwAs
  | kwSwitch
  | kwCase
  | kwDefault
  | kwBreak
  | kwContinue
  | kwTry
  | kwCatch
  | kwFinally
  | kwThrow
  | kwExit
  | kwEcho
  | kwClass
  | kwInterface
  | kwAbstract
  | kwFinal
  | kwExtends
  | kwImplements
  | kwPublic
  | kwProtected
  | kwPrivate
  | kwStatic
  | kwConst
  | kwNew
  | kwTrue
  | kwFalse
  | kwNull
  | kwInstanceof
  | kwArray
  deriving DecidableEq, Repr, Inhabited

namespace Kind

/-- The name of a kind in messages. -/
def label : Kind → String
  | eof => "EOF"
  | number => "Number"
  | text => "String"
  | name => "Identifier"
  | var => "Variable"
  | openNote => "OpenAnnotation"
  | closeNote => "CloseAnnotation"
  | openBracket => "OpenBracket"
  | closeBracket => "CloseBracket"
  | openCurly => "OpenCurly"
  | closeCurly => "CloseCurly"
  | openParen => "OpenParen"
  | closeParen => "CloseParen"
  | assign => "Assignment"
  | equals => "Equals"
  | identical => "Identical"
  | bang => "Not"
  | notEquals => "NotEquals"
  | notIdentical => "NotIdentical"
  | less => "Less"
  | lessEquals => "LessEquals"
  | greater => "Greater"
  | greaterEquals => "GreaterEquals"
  | or => "Or"
  | and => "And"
  | pipe => "Pipe"
  | ampersand => "Ampersand"
  | dot => "Dot"
  | dotEquals => "DotEquals"
  | semicolon => "Semicolon"
  | colon => "Colon"
  | doubleColon => "DoubleColon"
  | question => "Question"
  | comma => "Comma"
  | arrow => "Arrow"
  | doubleArrow => "DoubleArrow"
  | plusPlus => "PlusPlus"
  | minusMinus => "MinusMinus"
  | plusEquals => "PlusEquals"
  | minusEquals => "MinusEquals"
  | slashEquals => "SlashEquals"
  | starEquals => "StarEquals"
  | plus => "Plus"
  | dash => "Dash"
  | slash => "Slash"
  | star => "Star"
  | percent => "Percent"
  | kwFunction => "Function"
  | kwReturn => "Return"
  | kwIf => "If"
  | kwElse => "Else"
  | kwElseIf => "ElseIf"
  | kwWhile => "While"
  | kwDo => "Do"
  | kwFor => "For"
  | kwForeach => "Foreach"
  | kwAs => "As"
  | kwSwitch => "Switch"
  | kwCase => "Case"
  | kwDefault => "Default"
  | kwBreak => "Break"
  | kwContinue => "Continue"
  | kwTry => "Try"
  | kwCatch => "Catch"
  | kwFinally => "Finally"
  | kwThrow => "Throw"
  | kwExit => "Exit"
  | kwEcho => "Echo"
  | kwClass => "Class"
  | kwInterface => "Interface"
  | kwAbstract => "Abstract"
  | kwFinal => "Final"
  | kwExtends => "Extends"
  | kwImplements => "Implements"
  | kwPublic => "Public"
  | kwProtected => "Protected"
  | kwPrivate => "Private"
  | kwStatic => "Static"
  | kwConst => "Const"
  | kwNew => "New"
  | kwTrue => "True"
  | kwFalse => "False"
  | kwNull => "Null"
  | kwInstanceof => "Instanceof"
  | kwArray => "Array"

/-- Every kind, in the order of declaration. -/
def all : List Kind :=
  [.eof, .number, .text, .name, .var, .openNote, .closeNote, .openBracket, .closeBracket,
    .openCurly, .closeCurly, .openParen, .closeParen, .assign, .equals, .identical, .bang,
    .notEquals, .notIdentical, .less, .lessEquals, .greater, .greaterEquals, .or, .and, .pipe,
    .ampersand, .dot, .dotEquals, .semicolon, .colon, .doubleColon, .question, .comma, .arrow,
    .doubleArrow, .plusPlus, .minusMinus, .plusEquals, .minusEquals, .slashEquals, .starEquals,
    .plus, .dash, .slash, .star, .percent, .kwFunction, .kwReturn, .kwIf, .kwElse, .kwElseIf,
    .kwWhile, .kwDo, .kwFor, .kwForeach, .kwAs, .kwSwitch, .kwCase, .kwDefault, .kwBreak,
    .kwContinue, .kwTry, .kwCatch, .kwFinally, .kwThrow, .kwExit, .kwEcho, .kwClass, .kwInterface,
    .kwAbstract, .kwFinal, .kwExtends, .kwImplements, .kwPublic, .kwProtected, .kwPrivate,
    .kwStatic, .kwConst, .kwNew, .kwTrue, .kwFalse, .kwNull, .kwInstanceof, .kwArray]

/-- The reserved words in lower case, with the kinds they are read as. -/
def reservedWords : List (String × Kind) :=
  [("function", .kwFunction), ("return", .kwReturn), ("if", .kwIf), ("else", .kwElse),
    ("elseif", .kwElseIf), ("while", .kwWhile), ("do", .kwDo), ("for", .kwFor),
    ("foreach", .kwForeach), ("as", .kwAs), ("switch", .kwSwitch), ("case", .kwCase),
    ("default", .kwDefault), ("break", .kwBreak), ("continue", .kwContinue), ("try", .kwTry),
    ("catch", .kwCatch), ("finally", .kwFinally), ("throw", .kwThrow), ("exit", .kwExit),
    ("die", .kwExit), ("echo", .kwEcho), ("class", .kwClass), ("interface", .kwInterface),
    ("abstract", .kwAbstract), ("final", .kwFinal), ("extends", .kwExtends),
    ("implements", .kwImplements), ("public", .kwPublic), ("protected", .kwProtected),
    ("private", .kwPrivate), ("static", .kwStatic), ("const", .kwConst), ("new", .kwNew),
    ("true", .kwTrue), ("false", .kwFalse), ("null", .kwNull), ("instanceof", .kwInstanceof),
    ("and", .and), ("or", .or), ("array", .kwArray)]

/-- The operators and delimiters with a fixed spelling. A spelling stands before every shorter one
that it starts with. -/
def operators : List (String × Kind) :=
  [("[", .openBracket), ("]", .closeBracket), ("\x7b", .openCurly), ("\x7d", .closeCurly),
    ("(", .openParen), (")", .closeParen), ("===", .identical), ("!==", .notIdentical),
    ("==", .equals), ("!=", .notEquals), ("=>", .doubleArrow), ("!", .bang), ("=", .assign),
    ("<=", .lessEquals), ("<", .less), (">=", .greaterEquals), (">", .greater), ("||", .or),
    ("&&", .and), ("|", .pipe), ("&", .ampersand), (".=", .dotEquals), (".", .dot),
    (";", .semicolon), ("::", .doubleColon), (":", .colon), ("?", .question), (",", .comma),
    ("++", .plusPlus), ("->", .arrow), ("--", .minusMinus), ("+=", .plusEquals),
    ("-=", .minusEquals), ("*=", .starEquals), ("/=", .slashEquals), ("+", .plus), ("-", .dash),
    ("/", .slash), ("*", .star), ("%", .percent)]

end Kind

end ScriptCheck
