import BusTables.Text.Blank
import BusTables.Text.Bytes

/-!
# Payloads in hexadecimal notation

A payload is a list of bytes, written as pairs of hexadecimal digits of either case.  ASCII
blanks may stand anywhere, also inside a pair.  The digits are read from the UTF-8 bytes of the
text, so the length and the positions in faults count bytes.
-/

namespace BusTables

/-- The bytes that a command carries. -/
abbrev Payload := List UInt8

namespace Payload

/-- Why a text is no payload. -/
inductive Fault where
  | oddLength
  | wrongLength
  | invalidByte (byte : UInt8) (position : Nat)
  deriving DecidableEq, Repr

/-- The value of a hexadecimal digit of either case. -/
def nibble? (byte : UInt8) : Option Nat :=
  let code := byte.toNat
  if 0x30 ≤ code ∧ code ≤ 0x39 then some (code - 0x30)
  else if 0x41 ≤ code ∧ code ≤ 0x46 then some (code - 0x41 + 10)
  else if 0x61 ≤ code ∧ code ≤ 0x66 then some (code - 0x61 + 10)
  else none

/-- The value of the digit at a position, or the fault that names both. -/
def nibble (byte : UInt8) (position : Nat) : Except Fault Nat :=
  match nibble? byte with
  | some value => .ok value
  | none => .error (.invalidByte byte position)

/-- The bytes of consecutive digit pairs, of which the first starts at a position. -/
def ofPairs (position : Nat) : List UInt8 → Except Fault Payload
  | high :: low :: rest => do
      let upper ← nibble high position
      let lower ← nibble low (position + 1)
      let later ← ofPairs (position + 2) rest
      return UInt8.ofNat (16 * upper + lower) :: later
  | _ => .ok []

/-- The bytes that a sequence of digits denotes. -/
def ofDigits (digits : List UInt8) : Except Fault Payload :=
  if digits.length % 2 = 1 then .error .oddLength else ofPairs 0 digits

/-- The UTF-8 bytes of a text without its ASCII blanks. -/
def digitBytes (text : String) : List UInt8 :=
  Text.bytesOf (text.toList.filter (!Text.isAsciiBlank ·))

/-- The payload that a text denotes. -/
def ofText (text : String) : Except Fault Payload :=
  ofDigits (digitBytes text)

end Payload

end BusTables
