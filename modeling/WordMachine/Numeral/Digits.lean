import WordMachine.Text.Basic

/-!
# Writing numbers in a base

Numbers are written with the digits `0` to `9` and then lower-case letters, most significant digit
first. A field width counts the minus sign as one of its places and is filled with zeros.
-/

namespace WordMachine.Numeral

/-- The digit zero. -/
def zeroByte : UInt8 := 0x30

/-- The byte that writes one digit. -/
def digitByte (d : Nat) : UInt8 :=
  if d < 10 then UInt8.ofNat (0x30 + d) else UInt8.ofNat (0x57 + d)

/-- The digits of a number that has at most `fuel` of them. -/
def digitsWithin (base : Nat) : Nat → Nat → Text
  | 0, _ => []
  | fuel + 1, n =>
    if n < base then [digitByte n]
    else digitsWithin base fuel (n / base) ++ [digitByte (n % base)]

/-- The digits of a number, without leading zeros. In every base above one, a number has at most as
many digits as its value plus one. -/
def digits (base n : Nat) : Text := digitsWithin base (n + 1) n

/-- A signed number in a field of at least `width` places. -/
def padded (base width : Nat) (value : Int) : Text :=
  if value < 0 then
    Text.minus :: Text.padLeft (width - 1) zeroByte (digits base value.natAbs)
  else
    Text.padLeft width zeroByte (digits base value.natAbs)

/-- A signed number in base ten. -/
def decimal (value : Int) : Text := padded 10 0 value

/-- A signed number in base eight, with a zero before its digits to mark the base. -/
def markedOctal (value : Int) : Text :=
  if value = 0 then [zeroByte]
  else if value < 0 then [Text.minus, zeroByte] ++ digits 8 value.natAbs
  else zeroByte :: digits 8 value.natAbs

end WordMachine.Numeral
