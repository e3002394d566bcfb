import WordMachine.Text.Basic

/-!
# File paths

Paths are texts whose parts are divided by slashes.
-/

namespace WordMachine.Path

/-- The last part of a path. -/
def base (path : Text) : Text := (path.reverse.takeWhile (· ≠ Text.slash)).reverse

/-- The extension of a path: its last part from the last dot on, or nothing. -/
def extension (path : Text) : Text :=
  let name := base path
  let ending := (name.reverse.takeWhile (· ≠ Text.dot)).reverse
  if ending.length = name.length then [] else Text.dot :: ending

/-- A path with another extension. -/
def withExtension (path ending : Text) : Text :=
  path.take (path.length - (extension path).length) ++ ending

/-- Whether a path starts from the root. -/
def isAbsolute (path : Text) : Bool := path.head? == some Text.slash

/-- Whether a path ends in a slash. -/
def endsInSlash (path : Text) : Bool := path.getLast? == some Text.slash

/-- The parts of a path; slashes in a row count as one. -/
def parts (path : Text) : List Text :=
  (Text.split Text.slash path).filter fun part => !part.isEmpty

/-- The path of a place, given by its parts from the root. -/
def ofPlace (place : List Text) : Text :=
  if place.isEmpty then [Text.slash] else place.flatMap fun part => Text.slash :: part

/-- Follows one part of a path from the parts before it, which are in reverse order. -/
def follow (parents : List Text) (part : Text) : List Text :=
  if part == [Text.dot] then parents
  else if part == [Text.dot, Text.dot] then parents.tail
  else part :: parents

/-- The path from the root that a path stands for in a directory. -/
def absolute (directory path : Text) : Text :=
  let full := if isAbsolute path then path else directory ++ [Text.slash] ++ path
  ofPlace ((parts full).foldl follow []).reverse

end WordMachine.Path
