import WordMachine.Shell.Conversation

/-!
# Debug sessions

A session starts at a prompt. Then the machine steps, with prompts at its stops, until the shell
has quit, the machine has halted, a step fails or the limit is reached.
-/

namespace WordMachine.Shell

/-- Executes at most `budget` instructions, until the shell has quit or the machine has halted. -/
def proceed (tracing : Bool) (limit : Int) : Nat → Machine × Shell →
    Option Fault × (Machine × Shell)
  | budget, s =>
    if s.2.quit || s.1.halted then (none, s)
    else
      match budget with
      | 0 => (some (.stepLimit limit), s)
      | budget + 1 =>
        match Machine.stepWith (monitor tracing) s with
        | (some fault, (m, sh)) => (some fault, (m, sh.showRegisters m))
        | (none, s) => proceed tracing limit budget s

/-- The opening prompt. -/
def opening (s : Machine × Shell) : Machine × Shell := talk (s.1, s.2.showNext s.1)

/-- What is shown when a session has come to its end without a fault. -/
def closing (s : Machine × Shell) : Machine × Shell :=
  if s.1.halted then (s.1, (s.2.say "Program halted").showRegisters s.1) else s

/-- A whole session. -/
def session (tracing : Bool) (limit : Int) (s : Machine × Shell) :
    Option Fault × (Machine × Shell) :=
  match proceed tracing limit (Machine.budget limit) (opening s) with
  | (some fault, s) => (some fault, s)
  | (none, s) => (none, closing s)

/-- What a shell has printed, as text. -/
def transcript (sh : Shell) : Text := sh.printed.toList.flatMap Printed.render

end WordMachine.Shell
