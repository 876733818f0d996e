import BusTables.Payload
import BusTables.Proofs.Numeral.Slices

/-!
# Payloads, pair by pair

A payload is said here in characters, as pairs of hexadecimal digits among which ASCII blanks may
stand, whereas it is read in bytes.  A character that is no digit has a byte that is none, so that
a text is read exactly if what remains of it without the blanks consists of digits and has an even
number of bytes (`ofText_cases`).  A fault names the first byte that is no digit.
-/

namespace BusTables.Payload

open Text

/-- The blanks that may stand in a payload. -/
def blanks : List Char := [' ', '\t', '\n', '\x0c', '\r']

/-- The characters of a text other than these blanks. -/
def stripped (text : String) : List Char := text.toList.filter (· ∉ blanks)

/-- A character is the hexadecimal digit of a value, in either case. -/
abbrev IsDigit (character : Char) (value : Nat) : Prop :=
  Numeral.Base.hexadecimal.IsDigit character value

/-- A character is a hexadecimal digit. -/
def IsHex (character : Char) : Prop := ∃ value, IsDigit character value

/-- A byte is that of a hexadecimal digit. -/
def IsHexByte (byte : UInt8) : Prop := ∃ character, IsHex character ∧ bytesOf [character] = [byte]

/-- Two digits for each byte, the upper one first. -/
inductive Paired : List Char → Payload → Prop where
  | nil : Paired [] []
  | cons {high low : Char} {upper lower : Nat} {digits : List Char} {byte : UInt8}
      {bytes : Payload} (first : IsDigit high upper) (second : IsDigit low lower)
      (value : byte.toNat = 16 * upper + lower) (later : Paired digits bytes) :
      Paired (high :: low :: digits) (byte :: bytes)

/-- Two digits for each byte, with blanks anywhere, also between the two. -/
inductive Spells : List Char → Payload → Prop where
  | nil : Spells [] []
  | blank {character : Char} {text : List Char} {bytes : Payload} (empty : character ∈ blanks)
      (later : Spells text bytes) : Spells (character :: text) bytes
  | byte {high low : Char} {upper lower : Nat} {gap text : List Char} {byte : UInt8}
      {bytes : Payload} (first : IsDigit high upper)
      (empty : ∀ character ∈ gap, character ∈ blanks) (second : IsDigit low lower)
      (value : byte.toNat = 16 * upper + lower) (later : Spells text bytes) :
      Spells (high :: (gap ++ low :: text)) (byte :: bytes)

/-- What is wrong with bytes that are no pairs of digits: their number, or else the first of them
that is no digit. -/
inductive Faulty (digits : List UInt8) : Fault → Prop where
  | oddLength (odd : digits.length % 2 = 1) : Faulty digits .oddLength
  | invalidByte {before after : List UInt8} {byte : UInt8} (even : digits.length % 2 = 0)
      (split : digits = before ++ byte :: after) (valid : ∀ earlier ∈ before, IsHexByte earlier)
      (bad : ¬IsHexByte byte) : Faulty digits (.invalidByte byte before.length)

section Digits

variable {character : Char} {value : Nat} {byte : UInt8}

theorem utf8EncodeChar_of_isDigit (digit : IsDigit character value) :
    String.utf8EncodeChar character = [UInt8.ofNat character.toNat] := by
  have single := Numeral.holds_of_isDigit
    (fun character => String.utf8EncodeChar character == [UInt8.ofNat character.toNat]) digit
    (by decide)
  exact beq_iff_eq.mp single

theorem nibble?_of_isDigit (digit : IsDigit character value) :
    nibble? (UInt8.ofNat character.toNat) = some value := by
  obtain ⟨small, rfl | rfl⟩ := digit <;> revert value <;> decide

/-- A byte that is read as a digit is that of the character of its code. -/
theorem of_nibble? (read : nibble? byte = some value) :
    IsDigit (Char.ofNat byte.toNat) value ∧ bytesOf [Char.ofNat byte.toNat] = [byte] := by
  have every : ∀ code < 256, nibble? (UInt8.ofNat code) = none ∨
      Numeral.Base.hexadecimal.digit? (Char.ofNat code) = nibble? (UInt8.ofNat code) ∧
        bytesOf [Char.ofNat code] = [UInt8.ofNat code] := by
    decide +kernel
  have known := every byte.toNat byte.toNat_lt
  rw [UInt8.ofNat_toNat, read, Numeral.digit?_eq_some_iff] at known
  exact known.resolve_left (Option.some_ne_none value)

theorem nibble_of_isDigit (digit : IsDigit character value) (position : Nat) :
    nibble (UInt8.ofNat character.toNat) position = .ok value := by
  rw [nibble, nibble?_of_isDigit digit]

theorem bytesOf_singleton (digit : IsDigit character value) :
    bytesOf [character] = [UInt8.ofNat character.toNat] := by
  rw [bytesOf, List.flatMap_singleton, utf8EncodeChar_of_isDigit digit]

theorem isHexByte_iff : IsHexByte byte ↔ ∃ value, nibble? byte = some value := by
  constructor
  · rintro ⟨character, ⟨value, digit⟩, encoded⟩
    rw [bytesOf_singleton digit] at encoded
    rw [← List.head_eq_of_cons_eq encoded]
    exact ⟨value, nibble?_of_isDigit digit⟩
  · rintro ⟨value, read⟩
    obtain ⟨digit, encoded⟩ := of_nibble? read
    exact ⟨_, ⟨value, digit⟩, encoded⟩

theorem exists_nibble (valid : IsHexByte byte) (position : Nat) :
    ∃ value, nibble byte position = .ok value := by
  obtain ⟨value, read⟩ := isHexByte_iff.mp valid
  exact ⟨value, by rw [nibble, read]⟩

theorem nibble_of_not_isHexByte (bad : ¬IsHexByte byte) (position : Nat) :
    nibble byte position = .error (.invalidByte byte position) := by
  have none : nibble? byte = none :=
    Option.eq_none_iff_forall_ne_some.mpr fun value read => bad (isHexByte_iff.mpr ⟨value, read⟩)
  rw [nibble, none]

end Digits

/-- A text has a byte that is no digit if it has a character that is none. -/
theorem forall_isHexByte_iff {characters : List Char} :
    (∀ byte ∈ bytesOf characters, IsHexByte byte) ↔
      ∀ character ∈ characters, IsHex character := by
  constructor
  · intro valid character member
    obtain ⟨lead, leads, code⟩ := Numeral.head?_utf8EncodeChar character
    have among : lead ∈ bytesOf characters :=
      List.mem_flatMap.mpr ⟨character, member, List.mem_of_mem_head? leads⟩
    obtain ⟨digit, ⟨value, known⟩, encoded⟩ := valid lead among
    have single := List.head_eq_of_cons_eq ((bytesOf_singleton known).symm.trans encoded)
    have ascii : digit.toNat < 128 := by
      have low := Numeral.holds_of_isDigit (fun digit => decide (digit.toNat < 128)) known
        (by decide)
      exact decide_eq_true_eq.mp low
    have same : lead.toNat = digit.toNat := by
      rw [← single, UInt8.toNat_ofNat', Nat.mod_eq_of_lt (by omega)]
    rw [← Char.toNat_inj.mp (same.symm.trans (code.resolve_right (by omega)))]
    exact ⟨value, known⟩
  · intro valid byte member
    obtain ⟨character, among, inside⟩ := List.mem_flatMap.mp member
    obtain ⟨value, digit⟩ := valid character among
    rw [utf8EncodeChar_of_isDigit digit] at inside
    rw [List.mem_singleton.mp inside]
    exact ⟨character, ⟨value, digit⟩, bytesOf_singleton digit⟩

theorem length_bytesOf {characters : List Char}
    (valid : ∀ character ∈ characters, IsHex character) :
    (bytesOf characters).length = characters.length := by
  induction characters with
  | nil => rfl
  | cons character later ih =>
      obtain ⟨value, digit⟩ := valid character List.mem_cons_self
      have rest := ih fun _ member => valid _ (List.mem_cons_of_mem character member)
      rw [bytesOf, List.flatMap_cons, utf8EncodeChar_of_isDigit digit, List.singleton_append,
        List.length_cons, List.length_cons, ← rest]
      rfl

namespace Paired

variable {digits : List Char} {bytes : Payload}

theorem length_eq (paired : Paired digits bytes) : digits.length = 2 * bytes.length := by
  induction paired with
  | nil => rfl
  | cons _ _ _ _ ih => simp only [List.length_cons, ih]; omega

/-- The digits of a byte stand at twice its position. -/
theorem exists_digits (paired : Paired digits bytes) {position : Nat} {byte : UInt8}
    (stands : bytes[position]? = some byte) :
    ∃ high low upper lower, digits[2 * position]? = some high ∧
      digits[2 * position + 1]? = some low ∧ IsDigit high upper ∧ IsDigit low lower ∧
        byte.toNat = 16 * upper + lower := by
  induction paired generalizing position with
  | nil => cases stands
  | cons first second value later ih =>
      cases position with
      | zero =>
          obtain rfl := Option.some.inj stands
          exact ⟨_, _, _, _, rfl, rfl, first, second, value⟩
      | succ position => exact ih stands

/-- Digits of an even number can be paired. -/
theorem exists_of_even : ∀ {digits : List Char}, (∀ digit ∈ digits, IsHex digit) →
    digits.length % 2 = 0 → ∃ bytes, Paired digits bytes
  | [], _, _ => ⟨[], .nil⟩
  | [_], _, even => by cases even
  | high :: low :: digits, valid, even => by
      obtain ⟨upper, first⟩ := valid high List.mem_cons_self
      obtain ⟨lower, second⟩ := valid low (List.mem_cons_of_mem high List.mem_cons_self)
      obtain ⟨bytes, later⟩ := exists_of_even
        (fun digit member => valid digit (List.mem_cons_of_mem _ (List.mem_cons_of_mem _ member)))
        (by simp only [List.length_cons] at even; omega)
      have small : 16 * upper + lower < 256 := by
        have := first.1
        have := second.1
        change _ < 16 at *
        omega
      have value : (UInt8.ofNat (16 * upper + lower)).toNat = 16 * upper + lower := by
        rw [UInt8.toNat_ofNat', Nat.mod_eq_of_lt small]
      exact ⟨_, .cons first second value later⟩

theorem forall_isHex (paired : Paired digits bytes) : ∀ digit ∈ digits, IsHex digit := by
  induction paired with
  | nil => exact List.forall_mem_nil _
  | cons first second _ _ ih =>
      exact List.forall_mem_cons.mpr ⟨⟨_, first⟩, List.forall_mem_cons.mpr ⟨⟨_, second⟩, ih⟩⟩

theorem ofPairs_eq (paired : Paired digits bytes) (position : Nat) :
    ofPairs position (bytesOf digits) = .ok bytes := by
  induction paired generalizing position with
  | nil => rfl
  | @cons high low upper lower digits byte bytes first second value later ih =>
      have split : bytesOf (high :: low :: digits) =
          UInt8.ofNat high.toNat :: UInt8.ofNat low.toNat :: bytesOf digits := by
        simp [bytesOf, utf8EncodeChar_of_isDigit first, utf8EncodeChar_of_isDigit second]
      rw [split, ofPairs, nibble_of_isDigit first, nibble_of_isDigit second, ih]
      change Except.ok (UInt8.ofNat (16 * upper + lower) :: bytes) = _
      rw [← value, UInt8.ofNat_toNat]

theorem ofDigits_eq (paired : Paired digits bytes) : ofDigits (bytesOf digits) = .ok bytes := by
  have even : (bytesOf digits).length % 2 = 0 := by
    rw [length_bytesOf paired.forall_isHex, paired.length_eq]
    omega
  rw [ofDigits, if_neg (by omega), paired.ofPairs_eq]

end Paired

/-- Reading ends at the first byte that is no digit. -/
theorem ofPairs_of_not_isHexByte {byte : UInt8} (bad : ¬IsHexByte byte) {after : List UInt8} :
    ∀ {before : List UInt8} (position : Nat), (∀ earlier ∈ before, IsHexByte earlier) →
      (before ++ byte :: after).length % 2 = 0 →
        ofPairs position (before ++ byte :: after) =
          .error (.invalidByte byte (position + before.length))
  | [], position, _, even => by
      cases after with
      | nil => cases even
      | cons low rest =>
          rw [List.nil_append, ofPairs, nibble_of_not_isHexByte bad]
          rfl
  | [high], position, valid, _ => by
      obtain ⟨upper, first⟩ := exists_nibble (valid high List.mem_cons_self) position
      rw [List.singleton_append, ofPairs, first, nibble_of_not_isHexByte bad]
      rfl
  | high :: low :: before, position, valid, even => by
      obtain ⟨upper, first⟩ := exists_nibble (valid high List.mem_cons_self) position
      obtain ⟨lower, second⟩ :=
        exists_nibble (valid low (List.mem_cons_of_mem high List.mem_cons_self)) (position + 1)
      have rest := @ofPairs_of_not_isHexByte byte bad after before (position + 2)
        (fun earlier member => valid earlier (List.mem_cons_of_mem _ (List.mem_cons_of_mem _ member)))
        (by simp only [List.cons_append, List.length_cons] at even; omega)
      rw [List.cons_append, List.cons_append, ofPairs, first, second, rest]
      change Except.error (Fault.invalidByte byte (position + 2 + before.length)) = _
      rw [List.length_cons, List.length_cons]
      congr 2
      omega

theorem Faulty.ofDigits_eq {digits : List UInt8} {fault : Fault} (faulty : Faulty digits fault) :
    ofDigits digits = .error fault := by
  cases faulty with
  | oddLength odd => rw [ofDigits, if_pos odd]
  | invalidByte even split valid bad =>
      rw [split] at even ⊢
      rw [ofDigits, if_neg (by omega), ofPairs_of_not_isHexByte bad 0 valid even, Nat.zero_add]

theorem exists_paired_iff {characters : List Char} : (∃ bytes, Paired characters bytes) ↔
    (bytesOf characters).length % 2 = 0 ∧ ∀ character ∈ characters, IsHex character := by
  constructor
  · rintro ⟨bytes, paired⟩
    rw [length_bytesOf paired.forall_isHex, paired.length_eq]
    exact ⟨by omega, paired.forall_isHex⟩
  · rintro ⟨even, valid⟩
    rw [length_bytesOf valid] at even
    exact Paired.exists_of_even valid even

/-- Where not all items have a property, there is a first one that has not. -/
theorem exists_first {α : Type} {property : α → Prop} {items : List α}
    (some : ¬∀ item ∈ items, property item) :
    ∃ before item after, items = before ++ item :: after ∧
      (∀ earlier ∈ before, property earlier) ∧ ¬property item := by
  classical
  obtain ⟨item, member, fails⟩ : ∃ item ∈ items, ¬property item := by simpa using some
  have present : (items.find? fun item => decide (¬property item)).isSome :=
    List.find?_isSome.mpr ⟨item, member, decide_eq_true fails⟩
  obtain ⟨first, found⟩ := Option.isSome_iff_exists.mp present
  obtain ⟨fails, before, after, split, holds⟩ := List.find?_eq_some_iff_append.mp found
  exact ⟨before, first, after, split, by simpa using holds, of_decide_eq_true fails⟩

/-- Characters are pairs of digits, or something is wrong with their bytes. -/
theorem paired_or_faulty (characters : List Char) :
    (∃ bytes, Paired characters bytes) ∨ ∃ fault, Faulty (bytesOf characters) fault := by
  rcases Nat.mod_two_eq_zero_or_one (bytesOf characters).length with even | odd
  · by_cases valid : ∀ byte ∈ bytesOf characters, IsHexByte byte
    · exact .inl (exists_paired_iff.mpr ⟨even, forall_isHexByte_iff.mp valid⟩)
    · obtain ⟨before, byte, after, split, earlier, bad⟩ := exists_first valid
      exact .inr ⟨_, .invalidByte even split earlier bad⟩
  · exact .inr ⟨_, .oddLength odd⟩

section Texts

variable {text : String} {bytes : Payload} {fault : Fault}

theorem isAsciiBlank_iff (character : Char) :
    isAsciiBlank character = true ↔ character ∈ blanks := by
  simp [isAsciiBlank, blanks, ← Char.toNat_inj, or_assoc]

theorem ofText_eq (text : String) : ofText text = ofDigits (bytesOf (stripped text)) := by
  have same : (fun character => !isAsciiBlank character) =
      fun character => decide (character ∉ blanks) := by
    funext character
    rw [decide_not, ← Bool.decide_coe (isAsciiBlank character)]
    simp only [isAsciiBlank_iff]
  rw [ofText, digitBytes, same]
  rfl

theorem ofText_eq_ok_iff : ofText text = .ok bytes ↔ Paired (stripped text) bytes := by
  rw [ofText_eq]
  constructor
  · intro read
    rcases paired_or_faulty (stripped text) with ⟨other, paired⟩ | ⟨fault, faulty⟩
    · obtain rfl := Except.ok.inj (paired.ofDigits_eq.symm.trans read)
      exact paired
    · exact nomatch faulty.ofDigits_eq.symm.trans read
  · exact Paired.ofDigits_eq

theorem ofText_eq_error_iff :
    ofText text = .error fault ↔ Faulty (bytesOf (stripped text)) fault := by
  rw [ofText_eq]
  constructor
  · intro refused
    rcases paired_or_faulty (stripped text) with ⟨bytes, paired⟩ | ⟨other, faulty⟩
    · exact nomatch paired.ofDigits_eq.symm.trans refused
    · obtain rfl := Except.error.inj (faulty.ofDigits_eq.symm.trans refused)
      exact faulty
  · exact Faulty.ofDigits_eq

theorem not_mem_blanks {character : Char} {value : Nat} (digit : IsDigit character value) :
    character ∉ blanks := by
  have apart := Numeral.holds_of_isDigit (fun character => decide (character ∉ blanks)) digit
    (by decide)
  exact decide_eq_true_eq.mp apart

theorem spells_of_paired {characters : List Char} {bytes : Payload}
    (paired : Paired (characters.filter (· ∉ blanks)) bytes) : Spells characters bytes := by
  match characters with
  | [] =>
      cases paired
      exact .nil
  | first :: rest =>
      by_cases empty : first ∈ blanks
      · rw [List.filter_cons_of_neg (by simpa using empty)] at paired
        exact .blank empty (spells_of_paired paired)
      · rw [List.filter_cons_of_pos (by simpa using empty)] at paired
        -- The second digit is the first character of the rest that is not skipped.
        cases remaining : rest.filter (· ∉ blanks) with
        | nil =>
            rw [remaining] at paired
            cases paired
        | cons second digits =>
            rw [remaining] at paired
            obtain ⟨gap, text, split, skipped, -, kept⟩ := List.filter_eq_cons_iff.mp remaining
            have shorter : text.length < rest.length := by simp [split]; omega
            cases paired with
            | cons high low value later =>
                rw [← kept] at later
                rw [split]
                exact .byte high (by simpa using skipped) low value (spells_of_paired later)
termination_by characters.length

theorem paired_of_spells {characters : List Char} (spells : Spells characters bytes) :
    Paired (characters.filter (· ∉ blanks)) bytes := by
  induction spells with
  | nil => exact .nil
  | blank empty later ih => rwa [List.filter_cons_of_neg (by simpa using empty)]
  | @byte high low upper lower gap text byte bytes first empty second value later ih =>
      have skipped : gap.filter (· ∉ blanks) = [] := by
        simpa [List.filter_eq_nil_iff] using empty
      rw [List.filter_cons_of_pos (by simpa using not_mem_blanks first), List.filter_append,
        skipped, List.nil_append,
        List.filter_cons_of_pos (by simpa using not_mem_blanks second)]
      exact .cons first second value ih

/-- The texts of a payload are those that spell it. -/
theorem ofText_eq_ok_iff_spells : ofText text = .ok bytes ↔ Spells text.toList bytes :=
  ofText_eq_ok_iff.trans ⟨spells_of_paired, paired_of_spells⟩

end Texts

end BusTables.Payload
