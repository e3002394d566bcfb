import WordMachine.Numeral.Digits
import WordMachine.Text.Quoted

/-!
# Reading numbers in a base

Digits are read from left to right. A number fails at the first byte that is no digit of the base,
or as soon as the digits read so far exceed the bits that it may take, whichever comes first.
-/

namespace WordMachine.Numeral

/-- Why a numeral cannot be read. -/
inductive Fault where
  | malformed
  | outOfRange
  deriving DecidableEq, Repr

/-- The value of a digit byte; letters of either case count from ten. -/
def digitValue? (b : UInt8) : Option Nat :=
  if 0x30 ≤ b ∧ b ≤ 0x39 then some (b.toNat - 0x30)
  else if 0x61 ≤ b ∧ b ≤ 0x7A then some (b.toNat - 0x57)
  else if 0x41 ≤ b ∧ b ≤ 0x5A then some (b.toNat - 0x37)
  else none

/-- Reads digits after a number `value` that has already been read, up to a greatest value. -/
def readDigits (base greatest : Nat) (value : Nat) : Text → Except Fault Nat
  | [] => .ok value
  | b :: rest =>
    match digitValue? b with
    | none => .error .malformed
    | some d =>
      if base ≤ d then .error .malformed
      else if greatest < value * base + d then .error .outOfRange
      else readDigits base greatest (value * base + d) rest

/-- Reads a number without sign that fits in `bits` bits. -/
def readNat (base bits : Nat) (t : Text) : Except Fault Nat :=
  if t.isEmpty then .error .malformed else readDigits base (Nat.pow 2 bits - 1) 0 t

/-- A magnitude with its sign, if it is a signed number of `bits` bits. -/
def signed (bits : Nat) (negative : Bool) (magnitude : Nat) : Except Fault Int :=
  if negative then
    if magnitude ≤ Nat.pow 2 (bits - 1) then .ok (-(magnitude : Int)) else .error .outOfRange
  else
    if magnitude < Nat.pow 2 (bits - 1) then .ok magnitude else .error .outOfRange

/-- Splits off one leading sign; the flag says whether it is a minus. -/
def splitSign : Text → Bool × Text
  | [] => (false, [])
  | b :: rest =>
    if b = Text.minus then (true, rest)
    else if b = Text.plus then (false, rest)
    else (false, b :: rest)

/-- Reads a number with an optional sign that fits in `bits` bits. -/
def readInt (base bits : Nat) (t : Text) : Except Fault Int := do
  let (negative, body) := splitSign t
  let magnitude ← readNat base bits body
  signed bits negative magnitude

/-- The byte that may stand between digits. -/
def underscore : UInt8 := 0x5F

/-- Whether every underscore stands between two digits; `afterDigit` says whether a digit, or the
mark of a base, has just been read. -/
def separated (afterDigit : Bool) : Text → Bool
  | [] => afterDigit
  | b :: rest =>
    if b = underscore then afterDigit && separated false rest else separated true rest

/-- The base that the head of a numeral marks, and what follows the mark: `0x` is sixteen, `0o` or a
plain zero eight, `0b` two, and no mark ten. A letter marks a base only before a further byte. -/
def splitBase : Text → Nat × Text
  | 0x30 :: letter :: b :: rest =>
    if letter = 0x62 ∨ letter = 0x42 then (2, b :: rest)
    else if letter = 0x6F ∨ letter = 0x4F then (8, b :: rest)
    else if letter = 0x78 ∨ letter = 0x58 then (16, b :: rest)
    else (8, letter :: b :: rest)
  | 0x30 :: rest => (8, rest)
  | t => (10, t)

/-- Reads a number with an optional sign, an optional mark of its base, and underscores that stand
between digits or after the mark. -/
def readMarkedInt (bits : Nat) (t : Text) : Except Fault Int := do
  let (negative, body) := splitSign t
  if body.isEmpty then .error .malformed
  let (base, rest) := splitBase body
  let magnitude ← readDigits base (Nat.pow 2 bits - 1) 0 (rest.filter (· ≠ underscore))
  if rest.contains underscore && !separated (rest.length < body.length) rest then
    .error .malformed
  signed bits negative magnitude

/-- Reads a truth value. -/
def readBool (t : Text) : Except Fault Bool :=
  if ["1", "t", "T", "TRUE", "true", "True"].any (Text.ascii · == t) then .ok true
  else if ["0", "f", "F", "FALSE", "false", "False"].any (Text.ascii · == t) then .ok false
  else .error .malformed

/-- What a reader looks for. -/
inductive Form where
  | signed
  | unsigned
  | whole
  | truth
  deriving DecidableEq, Repr

/-- A text that could not be read. -/
structure Unreadable where
  form : Form
  text : Text
  fault : Fault
  deriving DecidableEq, Repr

/-- The name that messages give to a reader. -/
def Form.name : Form → Text
  | signed => Text.ascii "ParseInt"
  | unsigned => Text.ascii "ParseUint"
  | whole => Text.ascii "Atoi"
  | truth => Text.ascii "ParseBool"

/-- How messages describe a fault. -/
def Fault.description : Fault → Text
  | malformed => Text.ascii "invalid syntax"
  | outOfRange => Text.ascii "value out of range"

/-- The message for a text that could not be read. -/
def Unreadable.message (e : Unreadable) : Text :=
  Text.ascii "strconv." ++ e.form.name ++ Text.ascii ": parsing " ++ Text.quote e.text ++
    Text.ascii ": " ++ e.fault.description

end WordMachine.Numeral
