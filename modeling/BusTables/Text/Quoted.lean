/-!
# Quoted bytes

A byte of a malformed payload is shown as the character of its code point, between single
quotes.  The quote, the reverse solidus and the characters that cannot be printed are escaped.
-/

namespace BusTables.Text

/-- The code points below `0x100` that are shown by their number only. -/
def isUnprintable (code : Nat) : Bool :=
  code < 0x20 || (0x7F ≤ code && code ≤ 0xA0) || code == 0xAD

/-- What stands between the quotes for one byte. -/
def escapedByte (byte : UInt8) : List Char :=
  let code := byte.toNat
  if code = 0 then ['\\', '0']
  else if code = 0x09 then ['\\', 't']
  else if code = 0x0A then ['\\', 'n']
  else if code = 0x0D then ['\\', 'r']
  else if code = 0x27 then ['\\', '\'']
  else if code = 0x5C then ['\\', '\\']
  else if isUnprintable code then
    ['\\', 'u', '\x7b'] ++ Nat.toDigits 16 code ++ ['\x7d']
  else [Char.ofNat code]

/-- A byte as a quoted character. -/
def quotedByte (byte : UInt8) : String :=
  String.ofList ('\'' :: escapedByte byte ++ ['\''])

end BusTables.Text
