/-!
# Character classes of markup

The classes depend on nothing but the code point, and the admitted characters also on the version
of the language.  Version 1.1 admits the control characters, most of them only by reference.
-/

namespace BusTables.Xml

/-- The versions of the language. -/
inductive Version where
  | first
  | second
  deriving DecidableEq, Repr

/-- The version that a declaration names. -/
def Version.ofName? (name : List Char) : Option Version :=
  if name = "1.0".toList then some .first
  else if name = "1.1".toList then some .second
  else none

/-- The blanks of markup. -/
def isSpace (character : Char) : Bool :=
  character == ' ' || character == '\n' || character == '\t' || character == '\r'

/-- A code point lies in one of the ranges, ends included. -/
def inRanges (ranges : List (Nat × Nat)) (code : Nat) : Bool :=
  ranges.any fun (low, high) => low ≤ code && code ≤ high

/-- The ranges of characters that may start a name. -/
def nameStartRanges : List (Nat × Nat) :=
  [(0x3A, 0x3A), (0x41, 0x5A), (0x5F, 0x5F), (0x61, 0x7A), (0xC0, 0xD6), (0xD8, 0xF6),
    (0xF8, 0x2FF), (0x370, 0x37D), (0x37F, 0x1FFF), (0x200C, 0x200D), (0x2070, 0x218F),
    (0x2C00, 0x2FEF), (0x3001, 0xD7FF), (0xF900, 0xFDCF), (0xFDF0, 0xFFFD), (0x10000, 0xEFFFF)]

/-- The ranges of characters that may stand in a name but not start it. -/
def nameRestRanges : List (Nat × Nat) :=
  [(0x2D, 0x2E), (0x30, 0x39), (0xB7, 0xB7), (0x300, 0x36F), (0x203F, 0x2040)]

/-- A name may start with the character. -/
def isNameStart (character : Char) : Bool :=
  inRanges nameStartRanges character.toNat

/-- The character may stand in a name. -/
def isNameCharacter (character : Char) : Bool :=
  isNameStart character || inRanges nameRestRanges character.toNat

/-- The ranges of characters that a version admits at all. -/
def Version.admittedRanges : Version → List (Nat × Nat)
  | .first => [(0x09, 0x0A), (0x0D, 0x0D), (0x20, 0xD7FF), (0xE000, 0xFFFD), (0x10000, 0x10FFFF)]
  | .second => [(0x01, 0xD7FF), (0xE000, 0xFFFD), (0x10000, 0x10FFFF)]

/-- The ranges of characters that a version admits by reference only. -/
def Version.restrictedRanges : Version → List (Nat × Nat)
  | .first => []
  | .second => [(0x01, 0x08), (0x0B, 0x0C), (0x0E, 0x1F), (0x7F, 0x84), (0x86, 0x9F)]

/-- The version admits the character, as such or by reference. -/
def Version.admits (version : Version) (character : Char) : Bool :=
  inRanges version.admittedRanges character.toNat

/-- The version admits the character as such, in text and in attribute values. -/
def Version.admitsBare (version : Version) (character : Char) : Bool :=
  version.admits character && !inRanges version.restrictedRanges character.toNat

end BusTables.Xml
