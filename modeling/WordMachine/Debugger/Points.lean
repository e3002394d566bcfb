import WordMachine.Word

/-!
# Breakpoints and watchpoints

A breakpoint stops the machine before an instruction, and a watchpoint at an access to memory. Both
are kept in the order in which they were added, and none is kept twice.
-/

namespace WordMachine

/-- Which accesses a watchpoint looks at. Kinds beyond the three named ones look at every access. -/
inductive WatchKind where
  | read
  | write
  | readWrite
  | other (code : Nat)
  deriving DecidableEq, Repr

namespace WatchKind

/-- The number of a kind. -/
def code : WatchKind → Nat
  | read => 0
  | write => 1
  | readWrite => 2
  | other code => code

/-- The kind with a number. -/
def ofCode : Nat → WatchKind
  | 0 => read
  | 1 => write
  | 2 => readWrite
  | code => other code

/-- Whether a kind looks at readings. -/
def seesReading (kind : WatchKind) : Bool := kind != write

/-- Whether a kind looks at writings. -/
def seesWriting (kind : WatchKind) : Bool := kind != read

/-- The name of a kind. -/
def name : WatchKind → Text
  | read => Text.ascii "read"
  | write => Text.ascii "write"
  | _ => Text.ascii "readwrite"

end WatchKind

/-- An address whose accesses stop the machine. -/
structure Watchpoint where
  address : Word
  kind : WatchKind
  deriving DecidableEq, Repr

/-- Where the machine is to stop. -/
structure Points where
  breakpoints : List Word
  watchpoints : List Watchpoint
  deriving DecidableEq, Repr

/-- A number that names no point. -/
inductive PointError where
  | noBreakpoint
  | noWatchpoint
  deriving DecidableEq, Repr

/-- The message for a number that names no point. -/
def PointError.message : PointError → Text
  | noBreakpoint => Text.ascii "Invalid breakpoint number"
  | noWatchpoint => Text.ascii "Invalid watchpoint number"

namespace Points

/-- No points. -/
def empty : Points := ⟨[], []⟩

/-- Adds an element at the end of a list that does not have it yet, and tells whether it did. -/
def addNew {α : Type} [DecidableEq α] (xs : List α) (x : α) : List α × Bool :=
  if x ∈ xs then (xs, false) else (xs ++ [x], true)

/-- The list without the element at a position, if there is one. -/
def removeAt? {α : Type} (xs : List α) (position : Int) : Option (List α) :=
  if position < 0 ∨ (xs.length : Int) ≤ position then none
  else some (xs.eraseIdx position.toNat)

/-- Adds a breakpoint, and tells whether it is new. -/
def addBreakpoint (points : Points) (address : Word) : Points × Bool :=
  let (breakpoints, isNew) := addNew points.breakpoints address
  ({ points with breakpoints }, isNew)

/-- Adds a watchpoint, and tells whether it is new. -/
def addWatchpoint (points : Points) (watchpoint : Watchpoint) : Points × Bool :=
  let (watchpoints, isNew) := addNew points.watchpoints watchpoint
  ({ points with watchpoints }, isNew)

/-- Removes the breakpoint at a position. -/
def removeBreakpoint (points : Points) (position : Int) : Except PointError Points :=
  match removeAt? points.breakpoints position with
  | none => .error .noBreakpoint
  | some breakpoints => .ok { points with breakpoints }

/-- Removes the watchpoint at a position. -/
def removeWatchpoint (points : Points) (position : Int) : Except PointError Points :=
  match removeAt? points.watchpoints position with
  | none => .error .noWatchpoint
  | some watchpoints => .ok { points with watchpoints }

/-- Removes every breakpoint. -/
def clearBreakpoints (points : Points) : Points := { points with breakpoints := [] }

/-- Removes every watchpoint. -/
def clearWatchpoints (points : Points) : Points := { points with watchpoints := [] }

/-- Whether an instruction address has a breakpoint. -/
def breaksAt (points : Points) (address : Word) : Bool := points.breakpoints.contains address

/-- Whether reading an address is watched. -/
def watchesReading (points : Points) (address : Word) : Bool :=
  points.watchpoints.any fun w => w.kind.seesReading && w.address == address

/-- Whether writing an address is watched. -/
def watchesWriting (points : Points) (address : Word) : Bool :=
  points.watchpoints.any fun w => w.kind.seesWriting && w.address == address

end Points

end WordMachine
