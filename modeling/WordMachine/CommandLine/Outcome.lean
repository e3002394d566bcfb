import WordMachine.Log

/-!
# Outcomes of commands

A command prints on its output, tells messages, and ends in success or failure.
-/

namespace WordMachine.CommandLine

/-- What a command tells: log messages, and text that is always shown. -/
inductive Message where
  | notice (notice : Notice)
  | plain (t : Text)
  deriving DecidableEq, Repr

/-- The text of messages for a reader who asks for a verbosity. -/
def render (log : Log) (verbosity : Int) (messages : List Message) : Text :=
  messages.flatMap fun message =>
    match message with
    | .notice n => log.line verbosity n
    | .plain t => t

/-- What a command leaves. -/
structure Outcome where
  output : Text
  messages : Text
  failed : Bool
  deriving DecidableEq, Repr

/-- The exit code of a command. -/
def Outcome.exitCode (outcome : Outcome) : Nat := if outcome.failed then 1 else 0

/-- The outcome after the messages of a verbosity, with an error at the end if there is one. -/
def conclude (log : Log) (verbosity : Int) (output : Text) (messages : List Message)
    (error : Option Text) : Outcome :=
  match error with
  | none => ⟨output, render log verbosity messages, false⟩
  | some e => ⟨output, render log verbosity (messages ++ [.notice (.error e)]), true⟩

end WordMachine.CommandLine
