/-!
# Blank characters and trimming

The blank characters are the twenty-five code points with the Unicode property `White_Space`.
Trimming removes them from both ends of a text.  The ASCII blanks are the five that may stand
inside a hexadecimal payload; the vertical tab is not one of them.
-/

namespace BusTables.Text

/-- The code points with the property `White_Space`. -/
def isBlank (character : Char) : Bool :=
  let code := character.toNat
  (0x09 ≤ code && code ≤ 0x0D) || code == 0x20 || code == 0x85 || code == 0xA0 ||
    code == 0x1680 || (0x2000 ≤ code && code ≤ 0x200A) || code == 0x2028 || code == 0x2029 ||
    code == 0x202F || code == 0x205F || code == 0x3000

/-- Space, tab, line feed, form feed and carriage return. -/
def isAsciiBlank (character : Char) : Bool :=
  let code := character.toNat
  code == 0x20 || code == 0x09 || code == 0x0A || code == 0x0C || code == 0x0D

/-- The list without the longest run of members of the class at its end. -/
def dropEndWhile {α : Type} (test : α → Bool) (items : List α) : List α :=
  (items.reverse.dropWhile test).reverse

/-- The characters without the blanks at either end. -/
def trimmed (characters : List Char) : List Char :=
  dropEndWhile isBlank (characters.dropWhile isBlank)

/-- The text without the blanks at either end. -/
def trim (text : String) : String :=
  String.ofList (trimmed text.toList)

@[simp] theorem dropEndWhile_nil {α : Type} (test : α → Bool) :
    dropEndWhile test [] = [] :=
  rfl

/-- A list that ends outside the class stays whole. -/
theorem dropEndWhile_append_singleton_of_neg {α : Type} {test : α → Bool} {last : α}
    (outside : test last = false) (items : List α) :
    dropEndWhile test (items ++ [last]) = items ++ [last] := by
  simp [dropEndWhile, outside]

@[simp] theorem toList_trim (text : String) : (trim text).toList = trimmed text.toList := by
  simp [trim]

end BusTables.Text
