import WordMachine.Text.Basic

/-!
# Files

Commands reach files and their standard input through an interface, which a directory held in memory
implements as well as the system does.
-/

namespace WordMachine

/-- Why a file cannot be used. -/
inductive FileProblem where
  | missing
  | isDirectory
  | notDirectory
  | nameTooLong
  | other (description : Text)
  deriving DecidableEq, Repr

/-- How messages describe a problem. -/
def FileProblem.description : FileProblem → Text
  | missing => Text.ascii "no such file or directory"
  | isDirectory => Text.ascii "is a directory"
  | notDirectory => Text.ascii "not a directory"
  | nameTooLong => Text.ascii "file name too long"
  | other description => description

/-- What was done with a file that failed. -/
inductive FileAction where
  | opening
  | reading
  deriving DecidableEq, Repr

/-- How messages name an action. -/
def FileAction.name : FileAction → Text
  | opening => Text.ascii "open"
  | reading => Text.ascii "read"

/-- A file that cannot be used. -/
structure FileError where
  action : FileAction
  path : Text
  problem : FileProblem
  deriving DecidableEq, Repr

/-- The message for a file that cannot be used. -/
def FileError.message (e : FileError) : Text :=
  e.action.name ++ [Text.space] ++ e.path ++ Text.ascii ": " ++ e.problem.description

/-- Access to files. -/
structure Files (m : Type → Type) where
  /-- The directory that relative paths start from. -/
  directory : Text
  /-- The whole standard input. -/
  input : m Text
  read : Text → m (Except FileError Text)
  /-- Creates a file, or replaces what it holds. -/
  write : Text → Text → m (Except FileError Unit)

end WordMachine
