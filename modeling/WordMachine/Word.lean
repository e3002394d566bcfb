import WordMachine.Numeral.Literal

/-!
# Machine words

A word has sixteen bits and is shown as six octal digits. Binary renderings show the low bits of a
64-bit integer.
-/

namespace WordMachine

/-- A machine word. -/
abbrev Word := UInt16

namespace Word

/-- The bits of a word. -/
def bits : Nat := 16

/-- The word of an integer: its remainder modulo the number of words. -/
def ofInt (value : Int) : Word := UInt16.ofNat (value % 65536).toNat

/-- The integer of a word. -/
def toInt (w : Word) : Int := w.toNat

/-- A word as six octal digits. -/
def octal (w : Word) : Text := Numeral.padded 8 6 w.toInt

/-- Reads an unmarked octal number without sign that fits in a word. -/
def readOctal (t : Text) : Except Numeral.LiteralError Word :=
  if t.isEmpty || Numeral.hasSign t then .error .notOctal
  else
    match Numeral.readNat 8 bits t with
    | .ok value => .ok (UInt16.ofNat value)
    | .error fault => .error (.unreadable ⟨.unsigned, t, fault⟩)

/-- Reads at most sixteen binary digits. -/
def readBinary (t : Text) : Except Numeral.LiteralError Word :=
  if t.isEmpty || bits < t.length then .error .notBinary
  else
    match Numeral.readNat 2 bits t with
    | .ok value => .ok (UInt16.ofNat value)
    | .error _ => .error .notBinary

/-- The octal rendering of a word given by its binary digits. -/
def binaryToOctal (t : Text) : Except Numeral.LiteralError Text :=
  (readBinary t).map octal

end Word

/-! ## Low bits of integers -/

/-- The low `count` bits of a 64-bit integer. From 64 bits on nothing is cut off, and the integer
keeps its sign. -/
def lowBits (value : Int) (count : Nat) : Int :=
  if count < 64 then value % Nat.pow 2 count else value

/-- The widest field that is filled with zeros. -/
def widestField : Nat := 1000000

/-- The mark before the content of a field that is too wide to be filled. -/
def tooWideMark : Text := Text.ascii "%!(BADWIDTH)"

/-- The low bits of an integer as binary digits, in a field of as many places. A field that is too
wide is not filled, and the digits stand after a mark that says so. -/
def binary (value : Int) (count : Nat) : Text :=
  if count ≤ widestField then Numeral.padded 2 count (lowBits value count)
  else tooWideMark ++ Numeral.padded 2 0 (lowBits value count)

/-- The low bits of an integer as a word. -/
def lowWord (value : Int) (count : Nat) : Word := Word.ofInt (lowBits value count)

/-- A bit count below zero. -/
inductive BitCountError where
  | negative
  deriving DecidableEq, Repr

/-- The message for a bit count below zero. -/
def BitCountError.message : BitCountError → Text
  | negative => Text.ascii "runtime error: negative shift amount"

/-- A bit count, which cannot be below zero. -/
def bitCount (count : Int) : Except BitCountError Nat :=
  if count < 0 then .error .negative else .ok count.toNat

end WordMachine
