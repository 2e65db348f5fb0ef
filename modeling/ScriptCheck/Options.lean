import ScriptCheck.Report.Cause

/-!
Options of an analysis.
-/

namespace ScriptCheck

/-- What an analysis reports. -/
structure Options where
  /-- Reports below this severity are dropped. -/
  least : Severity := .notice
  /-- Whether something of unknown type is refused where a type is expected. -/
  strict : Bool := false
  /-- Whether exceptions that a routine does not declare are reported. -/
  reportsThrows : Bool := true
  /-- Whether statements that are never run are reported. -/
  reportsUnreachable : Bool := true
  deriving DecidableEq, Repr, Inhabited

end ScriptCheck
