import BusTables.Text.Digits

/-!
# Plain texts

Braces, commas, semicolons and line ends give generated text its structure.  A text without them
is plain.  Numbers are plain in either notation, and so is every word over letters, digits and
underscores.
-/

namespace BusTables.Text

/-- The character is none of those that give generated text its structure. -/
def isPlain (character : Char) : Bool :=
  !(['\x7b', '\x7d', ',', ';', '\n'].contains character)

/-- A letter, a digit or an underscore, of the ASCII ones. -/
def isWordCharacter (character : Char) : Bool :=
  character.isAlphanum || character == '_'

/-- All characters are plain. -/
def Plain (text : String) : Prop := ∀ character ∈ text.toList, isPlain character = true

instance (text : String) : Decidable (Plain text) :=
  decidable_of_iff (text.toList.all isPlain = true) List.all_eq_true

/-- There are characters, and all of them are letters, digits or underscores. -/
def IsWord (text : String) : Prop :=
  text ≠ "" ∧ ∀ character ∈ text.toList, isWordCharacter character = true

instance (text : String) : Decidable (IsWord text) :=
  decidable_of_iff (text ≠ "" ∧ text.toList.all isWordCharacter = true)
    (and_congr Iff.rfl List.all_eq_true)

@[simp] theorem toString_text (text : String) : toString text = text :=
  rfl

/-- A character of a class is none outside it. -/
theorem ne_of_class {test : Char → Bool} {character : Char} (inside : test character = true)
    (mark : Char) (outside : test mark = false) : character ≠ mark := by
  rintro rfl
  rw [inside] at outside
  exact Bool.noConfusion outside

theorem isPlain_of_isWordCharacter {character : Char}
    (word : isWordCharacter character = true) : isPlain character = true := by
  have apart := ne_of_class word
  simp [isPlain, apart '\x7b' (by decide), apart '\x7d' (by decide), apart ',' (by decide),
    apart ';' (by decide), apart '\n' (by decide)]

theorem isWordCharacter_of_isDigit {character : Char} (digit : character.isDigit = true) :
    isWordCharacter character = true := by
  simp [isWordCharacter, Char.isAlphanum, digit]

theorem isWhitespace_of_isDigit {character : Char} (digit : character.isDigit = true) :
    character.isWhitespace = false := by
  have apart := ne_of_class digit
  simp [Char.isWhitespace, apart ' ' (by decide), apart '\t' (by decide),
    apart '\r' (by decide), apart '\n' (by decide)]

theorem plain_ofList {characters : List Char}
    (plain : ∀ character ∈ characters, isPlain character = true) :
    Plain (String.ofList characters) := by
  simpa [Plain] using plain

theorem Plain.append {first later : String} (plain : Plain first) (rest : Plain later) :
    Plain (first ++ later) := by
  intro character member
  rw [String.toList_append, List.mem_append] at member
  exact member.elim (plain character) (rest character)

theorem Plain.whole {text : String} (plain : Plain text) : '\n' ∉ text.toList := by
  intro member
  exact absurd (plain '\n' member) (by decide)

theorem Plain.getLast?_ne {text : String} (plain : Plain text) {mark : Char}
    (structural : isPlain mark = false) : text.toList.getLast? ≠ some mark := by
  intro last
  rw [plain mark (List.mem_of_getLast? last)] at structural
  exact Bool.noConfusion structural

theorem isDigit_of_mem_toString {number : Nat} {character : Char}
    (member : character ∈ (toString number).toList) : character.isDigit = true := by
  rw [Nat.toString_eq_repr, Nat.toList_repr] at member
  exact Nat.isDigit_of_mem_toDigits (by decide) (by decide) member

theorem not_mem_toString (number : Nat) {mark : Char} (other : mark.isDigit = false) :
    mark ∉ (toString number).toList := by
  intro member
  rw [isDigit_of_mem_toString member] at other
  cases other

theorem plain_nat (number : Nat) : Plain (toString number) := fun _ member =>
  isPlain_of_isWordCharacter (isWordCharacter_of_isDigit (isDigit_of_mem_toString member))

theorem plain_numbered {before after : String} (start : Plain before) (number : Nat)
    (rest : Plain after) : Plain (before ++ toString number ++ after) :=
  (start.append (plain_nat number)).append rest

theorem plain_int (number : Int) : Plain (toString number) := by
  cases number with
  | ofNat number => exact plain_nat number
  | negSucc number => exact Plain.append (by decide) (plain_nat (number + 1))

theorem isWordCharacter_capitalDigit (value : Nat) (small : value < 16) :
    isWordCharacter (capitalDigit value) = true := by
  revert value
  decide

theorem isWordCharacter_of_mem_hexDigits {width value : Nat} {character : Char}
    (member : character ∈ hexDigits width value) : isWordCharacter character = true := by
  induction width generalizing value with
  | zero => exact absurd member List.not_mem_nil
  | succ width ih =>
      rcases List.mem_append.mp member with upper | lowest
      · exact ih upper
      · rw [List.mem_singleton.mp lowest]
        exact isWordCharacter_capitalDigit (value % 16) (Nat.mod_lt value (by decide))

theorem plain_hexWord (width value : Nat) : Plain (hexWord width value) :=
  Plain.append (by decide)
    (plain_ofList fun _ member =>
      isPlain_of_isWordCharacter (isWordCharacter_of_mem_hexDigits member))

end BusTables.Text
