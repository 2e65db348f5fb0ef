import ScriptCheck.Report.Line
import ScriptCheck.Report.Log
import ScriptCheck.Text.Blank

/-!
Reports with the source line they are about.

`render` shows a report, and under it the line of its place with a marker.
-/

namespace ScriptCheck

/-- The text at the right end of a field of the given width, filled up on the left. -/
def padLeft (fill : Char) (width : Nat) (cs : List Char) : List Char :=
  List.replicate (width - cs.length) fill ++ cs

/-- The characters a line is indented with. -/
def isIndent (c : Char) : Bool :=
  c == ' ' || c == '\t'

/-- The three lines that show a place: a bar, the line without its indentation, and the marker. -/
def markedLine (place : LinePlace) : List Char :=
  let number := (toString place.number).toList
  let width := number.length + 2
  let shown := place.text.dropWhile isIndent
  let removed := place.text.length - shown.length
  let arrow := place.column - removed + 1
  let bar := padLeft ' ' width ['|']
  bar ++ ['\n']
    ++ number ++ [' ', '|', ' '] ++ Text.trimRight shown ++ ['\n']
    ++ bar ++ [' '] ++ padLeft '-' arrow ['^'] ++ ['\n']

/-- A report with its source line. -/
def render (d : Diagnostic) (source : List Char) : String :=
  let title := d.label.getD d.message
  let advice := match d.tip with
    | some tip => " (" ++ tip ++ ")"
    | none => ""
  let head := d.severity.label ++ ": " ++ title ++ advice ++ "\n-> " ++ d.position.file ++ "\n"
  match lineAt source d.position.offset with
  | some place => head ++ String.ofList (markedLine place)
  | none => head

end ScriptCheck
