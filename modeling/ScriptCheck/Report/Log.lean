import ScriptCheck.Report.Cause

/-!
The log of an analysis.

A log keeps reports in the order in which they are made. A report below the log's least severity is
dropped, and so is one that repeats a report already kept.
-/

namespace ScriptCheck

/-- One report: where, how serious, what. A free-form report has neither label nor advice. -/
structure Diagnostic where
  position : Position
  severity : Severity
  label : Option String
  message : String
  tip : Option String
  deriving DecidableEq, Repr, Inhabited

namespace Diagnostic

/-- The report of a fault. -/
def ofFault (fault : Fault) : Diagnostic where
  position := fault.position
  severity := fault.cause.severity
  label := some fault.cause.label
  message := fault.cause.message
  tip := fault.cause.tip

/-- The report of a plain message. -/
def ofMessage (position : Position) (severity : Severity) (message : String) : Diagnostic where
  position := position
  severity := severity
  label := none
  message := message
  tip := none

/-- A report on one line: file, offset, severity and message. -/
def line (d : Diagnostic) : String :=
  d.position.file ++ ":" ++ toString d.position.offset ++ ": " ++ d.severity.label ++ ": "
    ++ d.message

end Diagnostic

/-- The reports kept so far, oldest first, and the least severity that is kept. -/
structure Log where
  least : Severity := .notice
  entries : List Diagnostic := []
  deriving DecidableEq, Repr, Inhabited

namespace Log

/-- Adds a report, unless it is too slight or already there. -/
def add (log : Log) (d : Diagnostic) : Log :=
  if d.severity.rank < log.least.rank || log.entries.contains d then log
  else { log with entries := log.entries ++ [d] }

/-- Adds the report of a fault. -/
def addFault (log : Log) (fault : Fault) : Log :=
  log.add (.ofFault fault)

/-- The number of reports of a severity. -/
def count (log : Log) (severity : Severity) : Nat :=
  log.entries.countP (·.severity = severity)

/-- Whether there is a report of an error. -/
def hasErrors (log : Log) : Bool :=
  log.count .error > 0

/-- The labels of the reports that have one. -/
def labels (log : Log) : List String :=
  log.entries.filterMap (·.label)

end Log

end ScriptCheck
