import WordMachine.Text.Basic

/-!
# Log messages

A log message is an error, a warning, or information of some verbosity. A log writes each message on
lines of its own, after a head. What a head says, which messages are written and how much is shown
of a long one depends on the log.
-/

namespace WordMachine

/-- How much a log message matters. -/
inductive Severity where
  | error
  | warning
  | info (verbosity : Nat)
  deriving DecidableEq, Repr

/-- The part of the program that a message comes from: the resolving of operands, or any other. -/
inductive Speaker where
  | operands
  | program
  deriving DecidableEq, Repr

/-- One log message. -/
structure Notice where
  severity : Severity
  text : Text
  speaker : Speaker := .program
  deriving DecidableEq, Repr

namespace Notice

/-- An error message. -/
def error (text : Text) : Notice := { severity := .error, text }

/-- A warning. -/
def warning (text : Text) : Notice := { severity := .warning, text }

/-- Information of a verbosity. -/
def info (verbosity : Nat) (text : Text) : Notice := { severity := .info verbosity, text }

/-- Information about an operand. -/
def operand (text : Text) : Notice := { severity := .info 2, text, speaker := .operands }

end Notice

/-- A log. -/
structure Log where
  /-- Whether a message is written for a reader who asks for a verbosity. -/
  writes : Int → Notice → Bool
  /-- What is written before a message. -/
  head : Notice → Text
  /-- What is written of a message, with the end of its line. -/
  shown : Notice → Text

/-- What a log writes of a message. -/
def Log.line (log : Log) (verbosity : Int) (n : Notice) : Text :=
  if log.writes verbosity n then log.head n ++ log.shown n else []

end WordMachine
