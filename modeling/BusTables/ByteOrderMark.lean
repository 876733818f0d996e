/-!
# Byte-order marks

A file that starts with the mark of an encoding other than UTF-8 is not read.  A file of fewer
than four bytes is never taken to start with a mark.
-/

namespace BusTables

/-- The encodings that announce themselves by their first bytes. -/
inductive ByteOrderMark where
  | utf8
  | utf16Big
  | utf16Little
  | utf32Big
  | utf32Little
  | utf7
  | utf1
  | utfEbcdic
  | scsu
  | bocu1
  | gb18030
  deriving DecidableEq, Repr

namespace ByteOrderMark

/-- The name under which an encoding is reported. -/
def name : ByteOrderMark → String
  | .utf8 => "UTF-8"
  | .utf16Big => "UTF-16 (big-endian)"
  | .utf16Little => "UTF-16 (little-endian)"
  | .utf32Big => "UTF-32 (big-endian)"
  | .utf32Little => "UTF-32 (little-endian)"
  | .utf7 => "UTF-7"
  | .utf1 => "UTF-1"
  | .utfEbcdic => "UTF-EBCDIC"
  | .scsu => "SCSU"
  | .bocu1 => "BOCU-1"
  | .gb18030 => "GB 18030"

/-- The mark that four bytes start with, the longer marks first. -/
def ofQuad? (first second third fourth : UInt8) : Option ByteOrderMark :=
  if [first, second, third, fourth] = [0x00, 0x00, 0xFE, 0xFF] then some .utf32Big
  else if [first, second, third, fourth] = [0xFF, 0xFE, 0x00, 0x00] then some .utf32Little
  else if [first, second, third, fourth] = [0xDD, 0x73, 0x66, 0x73] then some .utfEbcdic
  else if [first, second, third, fourth] = [0x84, 0x31, 0x95, 0x33] then some .gb18030
  else if [first, second, third] = [0x2B, 0x2F, 0x76] ∧ fourth ∈ [0x38, 0x39, 0x2B, 0x2F] then
    some .utf7
  else if [first, second, third] = [0xEF, 0xBB, 0xBF] then some .utf8
  else if [first, second, third] = [0xF7, 0x64, 0x4C] then some .utf1
  else if [first, second, third] = [0x0E, 0xFE, 0xFF] then some .scsu
  else if [first, second, third] = [0xFB, 0xEE, 0x28] then some .bocu1
  else if [first, second] = [0xFE, 0xFF] then some .utf16Big
  else if [first, second] = [0xFF, 0xFE] then some .utf16Little
  else none

/-- The mark that the content of a file starts with. -/
def ofContent? : List UInt8 → Option ByteOrderMark
  | first :: second :: third :: fourth :: _ => ofQuad? first second third fourth
  | _ => none

end ByteOrderMark

end BusTables
