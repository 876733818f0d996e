import BusTables.Text.Blank

/-!
# Integer literals

A literal is an optional sign, an optional base mark (`0x`, `0o` or `0b` in either case, after
which one underscore may stand) and digits of that base.  Single underscores may separate the
digits.  A decimal literal starts with zero only if all its digits are zero.  Blanks around the
literal do not count.

`value?` gives the unbounded integer that a literal denotes; `read?` reduces it to the
two's-complement range of 128 bits (`read?_eq`), digit by digit, so that long literals are read in
linear time.
-/

namespace BusTables

namespace Numeral

/-- The four notations. -/
inductive Base where
  | binary
  | octal
  | decimal
  | hexadecimal
  deriving DecidableEq, Repr

/-- The number of digits of a notation. -/
def Base.radix : Base → Nat
  | .binary => 2
  | .octal => 8
  | .decimal => 10
  | .hexadecimal => 16

/-- The notation that the second character of a literal starting with zero selects. -/
def Base.ofMark? : Char → Option Base
  | 'x' | 'X' => some .hexadecimal
  | 'o' | 'O' => some .octal
  | 'b' | 'B' => some .binary
  | _ => none

/-- The value of an ASCII digit or letter as a digit of base thirty-six. -/
def alphanumericValue? (character : Char) : Option Nat :=
  let code := character.toNat
  if 0x30 ≤ code ∧ code ≤ 0x39 then some (code - 0x30)
  else if 0x41 ≤ code ∧ code ≤ 0x5A then some (code - 0x41 + 10)
  else if 0x61 ≤ code ∧ code ≤ 0x7A then some (code - 0x61 + 10)
  else none

/-- The value of a digit of the notation. -/
def Base.digit? (base : Base) (character : Char) : Option Nat :=
  (alphanumericValue? character).filter (· < base.radix)

/-- The sign of a literal, and what follows it.  `true` stands for minus. -/
def signed : List Char → Bool × List Char
  | '-' :: rest => (true, rest)
  | '+' :: rest => (false, rest)
  | rest => (false, rest)

/-- One leading underscore is dropped. -/
def dropUnderscore : List Char → List Char
  | '_' :: rest => rest
  | rest => rest

/-- The notation of an unsigned literal, and its digits. -/
def based : List Char → Base × List Char
  | '0' :: mark :: rest =>
      match Base.ofMark? mark with
      | some base => (base, dropUnderscore rest)
      | none => (.decimal, '0' :: mark :: rest)
  | rest => (.decimal, rest)

/-- Each underscore stands between two characters other than underscores. -/
def separated : List Char → Bool
  | [] => false
  | ['_'] => false
  | [_] => true
  | '_' :: _ => false
  | _ :: '_' :: rest => separated rest
  | _ :: next :: rest => separated (next :: rest)

/-- No zero leads a decimal number other than zero. -/
def leadingZeroFree : List Char → Bool
  | '0' :: rest => rest.all (· == '0')
  | _ => true

/-- The number whose digits are given, most significant first. -/
def ofDigits (radix : Nat) (digits : List Nat) : Nat :=
  digits.foldl (fun total digit => total * radix + digit) 0

/-- The remainder of the number whose digits are given, reduced digit by digit. -/
def residue (modulus radix : Nat) (digits : List Nat) : Nat :=
  digits.foldl (fun total digit => (total * radix + digit) % modulus) 0

/-- The digits of a notation that stand between the underscores. -/
def digits? (base : Base) (spaced : List Char) : Option (List Nat) :=
  let digits := spaced.filter (· != '_')
  if separated spaced && (base != .decimal || leadingZeroFree digits) then
    digits.mapM base.digit?
  else none

/-- A literal taken apart. -/
structure Parts where
  negative : Bool
  base : Base
  /-- The digits, most significant first. -/
  digits : List Nat
  deriving DecidableEq, Repr

/-- The parts of a literal. -/
def Parts.ofLiteral? (literal : String) : Option Parts :=
  let (negative, unsigned) := signed (Text.trimmed literal.toList)
  let (base, spaced) := based unsigned
  (digits? base spaced).map fun digits => ⟨negative, base, digits⟩

/-- A magnitude with the sign of a literal. -/
def Parts.withSign (parts : Parts) (magnitude : Nat) : Int :=
  if parts.negative then -(magnitude : Int) else magnitude

/-- The integer that the parts denote. -/
def Parts.value (parts : Parts) : Int :=
  parts.withSign (ofDigits parts.base.radix parts.digits)

/-- The integer that a literal denotes. -/
def value? (literal : String) : Option Int :=
  (Parts.ofLiteral? literal).map Parts.value

/-- The width, in bits, in which literals are carried. -/
def width : Nat := 128

/-- The number of integers in the two's-complement range of the width. -/
def modulus : Nat := Nat.pow 2 width

/-- The integer that the parts denote, reduced to the two's-complement range of the width. -/
def Parts.reduced (parts : Parts) : Int :=
  (parts.withSign (residue modulus parts.base.radix parts.digits)).bmod modulus

/-- The integer that a literal denotes, reduced to the two's-complement range of the width. -/
def read? (literal : String) : Option Int :=
  (Parts.ofLiteral? literal).map Parts.reduced

/-- Reducing at each digit or at the end makes no difference. -/
theorem residue_eq (modulus radix : Nat) (digits : List Nat) :
    residue modulus radix digits = ofDigits radix digits % modulus := by
  have fold (total : Nat) :
      digits.foldl (fun total digit => (total * radix + digit) % modulus) (total % modulus) =
        digits.foldl (fun total digit => total * radix + digit) total % modulus := by
    induction digits generalizing total with
    | nil => rfl
    | cons digit later ih =>
        have step : (total % modulus * radix + digit) % modulus =
            (total * radix + digit) % modulus := by
          rw [Nat.add_mod, Nat.mul_mod, Nat.mod_mod, ← Nat.mul_mod, ← Nat.add_mod]
        rw [List.foldl_cons, List.foldl_cons, step, ih]
  simpa [residue, ofDigits] using fold 0

/-- What is carried of a literal is the integer that it denotes, reduced. -/
theorem Parts.reduced_eq (parts : Parts) : parts.reduced = parts.value.bmod modulus := by
  rw [Parts.reduced, Parts.value, residue_eq]
  generalize ofDigits parts.base.radix parts.digits = magnitude
  unfold Parts.withSign
  split
  · rw [Int.natCast_emod, ← Int.zero_sub, Int.sub_emod_bmod, Int.zero_sub]
  · rw [Int.natCast_emod, Int.emod_bmod]

theorem read?_eq (literal : String) : read? literal = (value? literal).map (·.bmod modulus) := by
  have reduced : Parts.reduced = (·.bmod modulus) ∘ Parts.value := funext Parts.reduced_eq
  rw [read?, value?, Option.map_map, reduced]

end Numeral

end BusTables
