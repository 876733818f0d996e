/-!
# Encodings of documents

The bytes of a document are read one character at a time, because a declaration at the start of
the document may change how the bytes behind it are read.  A byte-order mark fixes UTF-8 or
UTF-16; without one, UTF-8 is presumed until a declaration says otherwise.
-/

namespace BusTables.Xml

/-- How the two bytes of a UTF-16 unit are ordered. -/
inductive ByteOrder where
  | big
  | little
  deriving DecidableEq, Repr

/-- How the bytes of a document are read.  `presumed` is UTF-8 that a declaration may change. -/
inductive Encoding where
  | presumed
  | utf8
  | latin1
  | ascii
  | utf16 (order : ByteOrder)
  deriving DecidableEq, Repr

/-- The encodings that a declaration can name. -/
inductive EncodingLabel where
  | utf8
  | latin1
  | utf16
  | ascii
  deriving DecidableEq, Repr

/-- Bytes still to be read, and how to read them. -/
structure Source where
  encoding : Encoding
  bytes : List UInt8
  deriving DecidableEq, Repr

/-- What stands at the start of a source. -/
inductive Scanned where
  | finished
  | malformed
  | character (found : Char) (rest : List UInt8)
  deriving DecidableEq, Repr

namespace EncodingLabel

/-- The spellings of a label, in the order in which they are tried. -/
def spellings : List (String × EncodingLabel) :=
  [("utf-8", .utf8), ("utf8", .utf8), ("iso-8859-1", .latin1), ("latin1", .latin1),
    ("utf-16", .utf16), ("utf16", .utf16), ("ascii", .ascii), ("us-ascii", .ascii)]

/-- Two names agree, whatever their case, as far as the shorter one reaches. -/
def agree (spelling name : List Char) : Bool :=
  (spelling.zip name).all fun (expected, found) => expected == found.toLower

/-- The label that a declaration means by a name. -/
def ofName? (name : List Char) : Option EncodingLabel :=
  (spellings.find? fun (spelling, _) => agree spelling.toList name).map (·.2)

end EncodingLabel

namespace Encoding

/-- The encoding after a declaration that names a label; `none` if the two contradict. -/
def declared? : Encoding → EncodingLabel → Option Encoding
  | .presumed, .utf8 => some .utf8
  | .presumed, .latin1 => some .latin1
  | .presumed, .ascii => some .ascii
  | .utf8, .utf8 => some .utf8
  | .utf16 order, .utf16 => some (.utf16 order)
  | _, _ => none

/-- The character of a code point that is not below a bound. -/
def character? (least code : Nat) : Option Char :=
  if least ≤ code ∧ code.isValidChar then some (Char.ofNat code) else none

/-- The six bits that a continuation byte carries. -/
def continuation? (byte : UInt8) : Option Nat :=
  if 0x80 ≤ byte.toNat ∧ byte.toNat < 0xC0 then some (byte.toNat - 0x80) else none

/--
What a lead byte announces: the number of continuation bytes, the least code point that needs
so many, and the bits of the lead byte itself.
-/
def lead? (byte : UInt8) : Option (Nat × Nat × Nat) :=
  let code := byte.toNat
  if code < 0x80 then some (0, 0, code)
  else if 0xC0 ≤ code ∧ code < 0xE0 then some (1, 0x80, code - 0xC0)
  else if 0xE0 ≤ code ∧ code < 0xF0 then some (2, 0x800, code - 0xE0)
  else if 0xF0 ≤ code ∧ code < 0xF8 then some (3, 0x10000, code - 0xF0)
  else none

/-- The character of the bits of a lead byte and `count` continuation bytes. -/
def multibyte? (least bits count : Nat) (bytes : List UInt8) : Option Char := do
  let parts ← (bytes.take count).mapM continuation?
  if parts.length = count then
    character? least (parts.foldl (fun code part => code * 64 + part) bits)
  else none

/-- The outcome of an attempt to read a character. -/
def outcome (found : Option Char) (rest : List UInt8) : Scanned :=
  match found with
  | some found => .character found rest
  | none => .malformed

/-- The character in UTF-8 at the start of some bytes. -/
def scanUtf8 : List UInt8 → Scanned
  | [] => .finished
  | byte :: rest =>
      match lead? byte with
      | some (count, least, bits) => outcome (multibyte? least bits count rest) (rest.drop count)
      | none => .malformed

/-- The character of a single byte at the start of some bytes, if its code is below a bound. -/
def scanByte (bound : Nat) : List UInt8 → Scanned
  | [] => .finished
  | byte :: rest =>
      if byte.toNat < bound then .character (Char.ofNat byte.toNat) rest else .malformed

/-- The unit that two bytes form. -/
def unit (order : ByteOrder) (first second : UInt8) : Nat :=
  match order with
  | .big => first.toNat * 256 + second.toNat
  | .little => second.toNat * 256 + first.toNat

/-- The character of a surrogate pair. -/
def surrogatePair? (high low : Nat) : Option Char :=
  if 0xD800 ≤ high ∧ high < 0xDC00 ∧ 0xDC00 ≤ low ∧ low < 0xE000 then
    character? 0x10000 (0x10000 + (high - 0xD800) * 0x400 + (low - 0xDC00))
  else none

/-- The character in UTF-16 at the start of some bytes. -/
def scanUtf16 (order : ByteOrder) : List UInt8 → Scanned
  | [] => .finished
  | [_] => .malformed
  | first :: second :: rest =>
      match character? 0 (unit order first second) with
      | some found => .character found rest
      | none =>
          match rest with
          | third :: fourth :: later =>
              outcome (surrogatePair? (unit order first second) (unit order third fourth)) later
          | _ => .malformed

/-- What stands at the start of some bytes. -/
def scan : Encoding → List UInt8 → Scanned
  | .presumed => scanUtf8
  | .utf8 => scanUtf8
  | .latin1 => scanByte 0x100
  | .ascii => scanByte 0x80
  | .utf16 order => scanUtf16 order

theorem eq_of_outcome_eq_character {found : Option Char} {rest : List UInt8}
    {character : Char} {later : List UInt8}
    (read : outcome found rest = .character character later) : later = rest := by
  cases found with
  | none => cases read
  | some _ =>
      cases read
      rfl

theorem length_lt_of_scanUtf8 {bytes later : List UInt8} {character : Char}
    (read : scanUtf8 bytes = .character character later) : later.length < bytes.length := by
  cases bytes with
  | nil => cases read
  | cons byte rest =>
      simp only [scanUtf8] at read
      split at read
      · rw [eq_of_outcome_eq_character read]
        simp only [List.length_drop, List.length_cons]
        omega
      · cases read

theorem length_lt_of_scanByte {bound : Nat} {bytes later : List UInt8} {character : Char}
    (read : scanByte bound bytes = .character character later) :
    later.length < bytes.length := by
  cases bytes with
  | nil => cases read
  | cons byte rest =>
      simp only [scanByte] at read
      split at read
      · cases read
        simp
      · cases read

theorem length_lt_of_scanUtf16 {order : ByteOrder} {bytes later : List UInt8} {character : Char}
    (read : scanUtf16 order bytes = .character character later) :
    later.length < bytes.length := by
  match bytes with
  | [] => cases read
  | [_] => cases read
  | first :: second :: rest =>
      simp only [scanUtf16] at read
      split at read
      · cases read
        simp only [List.length_cons]
        omega
      · split at read
        · rw [eq_of_outcome_eq_character read]
          simp only [List.length_cons]
          omega
        · cases read

/-- Reading a character uses up at least one byte. -/
theorem length_lt_of_scan {encoding : Encoding} {bytes later : List UInt8} {character : Char}
    (read : encoding.scan bytes = .character character later) : later.length < bytes.length := by
  cases encoding with
  | presumed => exact length_lt_of_scanUtf8 read
  | utf8 => exact length_lt_of_scanUtf8 read
  | latin1 => exact length_lt_of_scanByte read
  | ascii => exact length_lt_of_scanByte read
  | utf16 order => exact length_lt_of_scanUtf16 read

end Encoding

namespace Source

/-- The source of a whole document: a byte-order mark is skipped and fixes the encoding. -/
def ofContent : List UInt8 → Source
  | 0xEF :: 0xBB :: 0xBF :: rest => ⟨.utf8, rest⟩
  | 0xFE :: 0xFF :: rest => ⟨.utf16 .big, rest⟩
  | 0xFF :: 0xFE :: rest => ⟨.utf16 .little, rest⟩
  | bytes => ⟨.presumed, bytes⟩

end Source

end BusTables.Xml
