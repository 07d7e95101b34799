/-!
# Reports and log events

A round tells what it finds in two ways. Reports are the findings a user has to see: each
has a severity, a subject and a message. Log events say what the program is doing; they
carry named values beside their message.
-/

namespace PlatformWiring

/-- How serious a report is. An error makes the round fail. -/
inductive Severity where
  | warning
  | error
  deriving DecidableEq, Inhabited, Repr

/-- The word for the severity. -/
def Severity.name : Severity → String
  | .warning => "warning"
  | .error => "error"

/-- A finding that a user has to see. -/
structure Report where
  /-- how serious it is -/
  severity : Severity
  /-- what it is about, usually a type -/
  subject : String
  /-- what is wrong -/
  message : String
  deriving DecidableEq, Inhabited, Repr

/-- How important a log event is. -/
inductive LogLevel where
  | debug
  | info
  | warn
  | error
  deriving DecidableEq, Inhabited, Repr

/-- The word for the level. -/
def LogLevel.name : LogLevel → String
  | .debug => "DEBUG"
  | .info => "INFO"
  | .warn => "WARN"
  | .error => "ERROR"

/-- The event is important enough to be shown even when only problems are. -/
def LogLevel.isProblem : LogLevel → Bool
  | .debug | .info => false
  | .warn | .error => true

/-- A value that a log event carries. -/
inductive LogValue where
  | text (s : String)
  | count (n : Nat)
  deriving DecidableEq, Inhabited, Repr

/-- A log event. -/
structure LogEvent where
  /-- how important it is -/
  level : LogLevel
  /-- what happened -/
  message : String
  /-- named values, in order -/
  fields : List (String × LogValue)
  deriving DecidableEq, Inhabited, Repr

/-- The log event of a report. -/
def Report.toEvent (r : Report) : LogEvent :=
  { level := match r.severity with
      | .warning => .warn
      | .error => .error
    message := r.message
    fields := [("subject", .text r.subject)] }

/-- What a round sends out, in order. -/
inductive Signal where
  /-- something to log -/
  | event (e : LogEvent)
  /-- something to report -/
  | report (r : Report)
  deriving DecidableEq, Inhabited, Repr

namespace Signal

/-- The report in a signal. -/
def report? : Signal → Option Report
  | .event _ => none
  | .report r => some r

/-- The log event in a signal. -/
def event? : Signal → Option LogEvent
  | .event e => some e
  | .report _ => none

/-- The signal as a log event. -/
def toEvent : Signal → LogEvent
  | .event e => e
  | .report r => r.toEvent

end Signal

/-- The number of reports of a severity. -/
def countReports (s : Severity) (rs : List Report) : Nat :=
  (rs.filter fun r => decide (r.severity = s)).length

end PlatformWiring
