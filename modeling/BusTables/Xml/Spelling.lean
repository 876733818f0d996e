import BusTables.Text.Bytes
import BusTables.Xml.Character

/-!
# Names being read

A name is spelled out one character at a time.  Beside its characters a spelling knows how many
bytes they take, since a name that has passed the limit is not continued.
-/

namespace BusTables.Xml

/-- The characters of a name that have been read, in reverse, and how many bytes they take. -/
structure Spelling where
  reversed : List Char
  size : Nat
  size_eq : size = (Text.bytesOf reversed).length
  deriving DecidableEq, Repr

namespace Spelling

/-- No character has been read. -/
def empty : Spelling := ⟨[], 0, rfl⟩

/-- A name that takes more bytes is not continued. -/
def limit : Nat := 262144

/-- No character has been read. -/
def isEmpty (spelling : Spelling) : Bool := spelling.reversed.isEmpty

/-- The characters that have been read. -/
def characters (spelling : Spelling) : List Char := spelling.reversed.reverse

/-- The spelling with one more character. -/
def add (spelling : Spelling) (character : Char) : Spelling :=
  ⟨character :: spelling.reversed, character.utf8Size + spelling.size, by
    simp [Text.bytesOf, spelling.size_eq]⟩

/-- The character may come next in a name. -/
def admits (spelling : Spelling) (character : Char) : Bool :=
  if spelling.isEmpty then isNameStart character
  else isNameCharacter character && spelling.size ≤ limit

/-- The spelling with one more character; `none` if that may not come next in a name. -/
def extend? (spelling : Spelling) (character : Char) : Option Spelling :=
  if spelling.admits character then some (spelling.add character) else none

theorem characters_add (spelling : Spelling) (character : Char) :
    (spelling.add character).characters = spelling.characters ++ [character] :=
  List.reverse_cons

/-- A name exceeds the limit by no more than its last character. -/
theorem size_le_of_extend? {spelling longer : Spelling} {character : Char}
    (extended : spelling.extend? character = some longer) :
    longer.size ≤ limit + character.utf8Size := by
  unfold extend? at extended
  split at extended
  · rename_i admitted
    cases extended
    have within : spelling.size ≤ limit := by
      unfold admits at admitted
      split at admitted
      · rename_i none_read
        have size_zero : spelling.size = 0 := by
          rw [spelling.size_eq, List.isEmpty_iff.mp none_read]
          rfl
        rw [size_zero]
        exact Nat.zero_le _
      · simp only [Bool.and_eq_true, decide_eq_true_eq] at admitted
        exact admitted.2
    simp only [add]
    omega
  · cases extended

end Spelling

end BusTables.Xml
