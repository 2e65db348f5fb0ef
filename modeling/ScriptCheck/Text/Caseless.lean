/-!
Comparison of names without regard to case.

Keywords, class, function and method names are compared with the basic Latin letters lowered and
every other character as it is. A class or function name may start with namespace separators,
which do not count.
-/

namespace ScriptCheck.Text

/-- The text with its basic Latin capitals lowered. -/
def lowerAscii (s : String) : String :=
  String.ofList (s.toList.map Char.toLower)

/-- Equality up to the case of the basic Latin letters. -/
def sameIgnoringCase (a b : String) : Bool :=
  lowerAscii a == lowerAscii b

/-- The name without its leading namespace separators. -/
def dropSeparators (name : String) : String :=
  String.ofList (name.toList.dropWhile (· == '\\'))

/-- The key under which a class or function name is looked up. -/
def nameKey (name : String) : String :=
  lowerAscii (dropSeparators name)

end ScriptCheck.Text
