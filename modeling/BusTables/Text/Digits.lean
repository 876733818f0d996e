/-!
# Digits of fixed width

A word is written in capital hexadecimal digits of a fixed number, leading zeros included.
-/

namespace BusTables.Text

/-- The capital digit of a value below sixteen. -/
def capitalDigit (value : Nat) : Char :=
  if value < 10 then Char.ofNat (0x30 + value) else Char.ofNat (0x41 + (value - 10))

/-- The lowest `width` hexadecimal digits of a value, most significant first. -/
def hexDigits : Nat → Nat → List Char
  | 0, _ => []
  | width + 1, value => hexDigits width (value / 16) ++ [capitalDigit (value % 16)]

/-- A value behind the mark of hexadecimal notation, in `width` capital digits. -/
def hexWord (width value : Nat) : String :=
  "0x" ++ String.ofList (hexDigits width value)

@[simp] theorem length_hexDigits (width value : Nat) :
    (hexDigits width value).length = width := by
  induction width generalizing value with
  | zero => rfl
  | succ width ih => simp [hexDigits, ih]

end BusTables.Text
