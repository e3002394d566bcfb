import WordMachine.CommandLine.Files
import WordMachine.CommandLine.Path

/-!
# A file tree in memory

A store holds files and directories, each at its place, the parts of its path from the root. Paths
are followed part by part: every part but the last has to lead to a directory, and two dots lead to
the directory above. One device belongs to every tree: it is empty, and what is written to it is
lost.
-/

namespace WordMachine

/-- Files and directories, each under its place. -/
structure Store where
  files : List (List Text × Text)
  directories : List (List Text)
  deriving DecidableEq, Repr

namespace Store

/-- The place of the device that keeps nothing. -/
def nullDevice : List Text := [Text.ascii "dev", Text.ascii "null"]

/-- The store whose directory `home` holds files and directories under their paths. -/
def ofEntries (home : List Text) (files : List (Text × Text)) (directories : List Text) : Store :=
  let place := fun path => home ++ Path.parts path
  { files := (nullDevice, []) :: files.map fun file => (place file.1, file.2)
    directories := nullDevice.dropLast :: home ::
      (files.map fun file => (place file.1).dropLast) ++ directories.map place }

/-- The names and contents of the files directly in a directory. -/
def filesIn (store : Store) (place : List Text) : List (Text × Text) :=
  store.files.filterMap fun (file, content) =>
    if file.dropLast == place then file.getLast?.map fun name => (name, content) else none

/-- The content of a file. -/
def file? (store : Store) (place : List Text) : Option Text := store.files.lookup place

/-- Whether there is a directory. The root is one, and so is all that leads to a directory. -/
def isDirectory (store : Store) (place : List Text) : Bool :=
  place.isEmpty || store.directories.any place.isPrefixOf

/-- The bytes of the longest part of a path. -/
def longestName : Nat := 255

/-- The bytes of the longest path. -/
def longestPath : Nat := 4095

/-- The place that a part leads to from a directory. -/
def follow (place : List Text) (part : Text) : Except FileProblem (List Text) :=
  if longestName < part.length then .error .nameTooLong
  else .ok (Path.follow place.reverse part).reverse

/-- Follows a part of a path that has to lead to a directory. -/
def enter (store : Store) (place : List Text) (part : Text) : Except FileProblem (List Text) := do
  let target ← follow place part
  if store.isDirectory target then .ok target
  else if (store.file? target).isSome then .error .notDirectory
  else .error .missing

/-- The directory in which the last part of a path stands. Relative paths start from `home`. -/
def parent (store : Store) (home : List Text) (path : Text) : Except FileProblem (List Text) :=
  if path.isEmpty then .error .missing
  else if longestPath < path.length then .error .nameTooLong
  else (Path.parts path).dropLast.foldlM store.enter (if Path.isAbsolute path then [] else home)

/-- The place that a path leads to. -/
def resolve (store : Store) (home : List Text) (path : Text) :
    Except FileProblem (List Text) := do
  let place ← store.parent home path
  match (Path.parts path).getLast? with
  | none => .ok place
  | some name => follow place name

/-- The place where a path lets a file be written. A path that ends in a slash names a directory,
whether or not there is one. -/
def destination (store : Store) (home : List Text) (path : Text) :
    Except FileProblem (List Text) := do
  let _ ← store.parent home path
  if Path.endsInSlash path then .error .isDirectory
  else
    let target ← store.resolve home path
    if store.isDirectory target then .error .isDirectory else .ok target

/-- Reads a file. -/
def read (store : Store) (home : List Text) (path : Text) : Except FileError Text :=
  match store.resolve home path with
  | .error problem => .error ⟨.opening, path, problem⟩
  | .ok target =>
    if store.isDirectory target then .error ⟨.reading, path, .isDirectory⟩
    else
      match store.file? target with
      | none => .error ⟨.opening, path, .missing⟩
      | some content =>
        if Path.endsInSlash path then .error ⟨.opening, path, .notDirectory⟩ else .ok content

/-- Replaces the content of a file, or adds the file at the end. -/
def put (store : Store) (place : List Text) (content : Text) : Store :=
  if place = nullDevice then store
  else if (store.file? place).isSome then
    { store with files := store.files.map fun entry =>
        if entry.1 == place then (place, content) else entry }
  else { store with files := store.files ++ [(place, content)] }

/-- Writes a file. -/
def write (store : Store) (home : List Text) (path content : Text) :
    Except FileError Unit × Store :=
  match store.destination home path with
  | .error problem => (.error ⟨.opening, path, problem⟩, store)
  | .ok target => (.ok (), store.put target content)

/-- The files of a store, reached from a directory, and a standard input. -/
def access (home : List Text) (input : Text) : Files (StateM Store) :=
  { directory := Path.ofPlace home
    input := return input
    read := fun path => do return (← get).read home path
    write := fun path content => modifyGet fun store => store.write home path content }

end Store

end WordMachine
