import WordMachine.Text.Basic

/-!
# Reading UTF-8

The head of a text is either the shortest encoding of a Unicode scalar value or a byte that starts
none. Surrogates, overlong forms and values above U+10FFFF are no encodings.
-/

namespace WordMachine.Text

/-- Whether a byte can continue an encoding. -/
def isContinuation (b : UInt8) : Bool := 0x80 ≤ b && b ≤ 0xBF

/-- The payload of a continuation byte. -/
def continuationBits (b : UInt8) : Nat := b.toNat % 64

/-- The scalar value encoded at the head of a text and the number of its bytes, if there is one. -/
def scalar? : Text → Option (Nat × Nat)
  | [] => none
  | b :: rest =>
    if b < 0x80 then some (b.toNat, 1)
    else if 0xC2 ≤ b && b ≤ 0xDF then
      match rest with
      | c :: _ =>
        if isContinuation c then some (b.toNat % 32 * 64 + continuationBits c, 2) else none
      | [] => none
    else if 0xE0 ≤ b && b ≤ 0xEF then
      match rest with
      | c :: d :: _ =>
        let value := b.toNat % 16 * 4096 + continuationBits c * 64 + continuationBits d
        if isContinuation c && isContinuation d && 0x800 ≤ value &&
            !(0xD800 ≤ value && value ≤ 0xDFFF) then
          some (value, 3)
        else none
      | _ => none
    else if 0xF0 ≤ b && b ≤ 0xF4 then
      match rest with
      | c :: d :: e :: _ =>
        let value := b.toNat % 8 * 262144 + continuationBits c * 4096 +
          continuationBits d * 64 + continuationBits e
        if isContinuation c && isContinuation d && isContinuation e && 0x10000 ≤ value &&
            value ≤ 0x10FFFF then
          some (value, 4)
        else none
      | _ => none
    else none

/-- The UTF-8 encoding of a scalar value. -/
def ofScalar (value : Nat) : Text :=
  if value < 0x80 then [UInt8.ofNat value]
  else if value < 0x800 then
    [UInt8.ofNat (0xC0 + value / 64), UInt8.ofNat (0x80 + value % 64)]
  else if value < 0x10000 then
    [UInt8.ofNat (0xE0 + value / 4096), UInt8.ofNat (0x80 + value / 64 % 64),
      UInt8.ofNat (0x80 + value % 64)]
  else
    [UInt8.ofNat (0xF0 + value / 262144), UInt8.ofNat (0x80 + value / 4096 % 64),
      UInt8.ofNat (0x80 + value / 64 % 64), UInt8.ofNat (0x80 + value % 64)]

/-- The number of characters of a valid UTF-8 text: its bytes that continue no encoding. -/
def characters (t : Text) : Nat := t.countP fun b => !isContinuation b

end WordMachine.Text
