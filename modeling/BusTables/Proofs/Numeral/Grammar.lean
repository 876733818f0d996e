import BusTables.Numeral
import BusTables.Proofs.Text.Continuation
import BusTables.Proofs.Text.Plain
import Mathlib.Data.Nat.Digits.Defs

/-!
# The grammar of integer literals

A literal is said here without its reader: as a word of digits between which single underscores
may stand, the words with a base mark and without one, a sign, and blanks around it.  The reader
accepts exactly these literals and gives the integers that they denote (`value?_eq_some_iff`).
-/

namespace BusTables.Numeral

/-- The letters that select a notation behind a zero. -/
def Base.marks : Base → List Char
  | .binary => ['b', 'B']
  | .octal => ['o', 'O']
  | .decimal => []
  | .hexadecimal => ['x', 'X']

/-- A character is the digit of a value; letters may be of either case. -/
def Base.IsDigit (base : Base) (character : Char) (value : Nat) : Prop :=
  value < base.radix ∧
    (character = Nat.digitChar value ∨ character = (Nat.digitChar value).toUpper)

/-- Digits, the most significant first, with at most one underscore between two of them. -/
inductive Spaced (base : Base) : List Char → List Nat → Prop where
  | last {character : Char} {value : Nat} (digit : base.IsDigit character value) :
      Spaced base [character] [value]
  | next {character : Char} {value : Nat} {word : List Char} {digits : List Nat}
      (digit : base.IsDigit character value) (later : Spaced base word digits) :
      Spaced base (character :: word) (value :: digits)
  | gap {character : Char} {value : Nat} {word : List Char} {digits : List Nat}
      (digit : base.IsDigit character value) (later : Spaced base word digits) :
      Spaced base (character :: '_' :: word) (value :: digits)

/-- The first digit is zero only if all digits are. -/
def Unpadded (digits : List Nat) : Prop := digits.head? = some 0 → ∀ digit ∈ digits, digit = 0

/-- Behind a base mark one underscore may stand before the digits; without a mark the digits are
decimal and unpadded. -/
inductive Unsigned : List Char → Nat → Prop where
  | marked {base : Base} {mark : Char} {gap word : List Char} {digits : List Nat}
      (selects : mark ∈ base.marks) (single : gap = [] ∨ gap = ['_'])
      (spaced : Spaced base word digits) :
      Unsigned ('0' :: mark :: (gap ++ word)) (Nat.ofDigits base.radix digits.reverse)
  | plain {word : List Char} {digits : List Nat} (spaced : Spaced .decimal word digits)
      (unpadded : Unpadded digits) :
      Unsigned word (Nat.ofDigits 10 digits.reverse)

/-- A word with at most one sign before it. -/
inductive Signed : List Char → Int → Prop where
  | bare {word : List Char} {value : Nat} (unsigned : Unsigned word value) : Signed word value
  | plus {word : List Char} {value : Nat} (unsigned : Unsigned word value) :
      Signed ('+' :: word) value
  | minus {word : List Char} {value : Nat} (unsigned : Unsigned word value) :
      Signed ('-' :: word) (-value)

/-- A literal denotes an integer; blanks around the word do not count. -/
def Denotes (literal : String) (value : Int) : Prop :=
  ∃ before word after, literal.toList = before ++ word ++ after ∧
    (∀ character ∈ before, Text.isBlank character = true) ∧
    (∀ character ∈ after, Text.isBlank character = true) ∧ Signed word value

theorem ofDigits_eq (radix : Nat) (digits : List Nat) :
    ofDigits radix digits = Nat.ofDigits radix digits.reverse := by
  rw [Nat.ofDigits_eq_foldr, List.foldr_reverse, ofDigits]
  simp only [Nat.cast_id, Nat.mul_comm, Nat.add_comm]

section Digits

variable {base : Base} {character : Char} {value : Nat}

theorem radix_le (base : Base) : base.radix ≤ 16 := by
  cases base <;> decide

theorem alphanumericValue?_of_isDigit (digit : base.IsDigit character value) :
    alphanumericValue? character = some value := by
  obtain ⟨small, rfl | rfl⟩ := digit <;>
    have bound := Nat.lt_of_lt_of_le small (radix_le base) <;>
    clear small <;> revert value <;> decide

/-- The codes of the digits are those of their values, ten behind the zero and six behind each of
the two letters. -/
theorem eq_digitChar_of_alphanumericValue? (small : value < 16)
    (read : alphanumericValue? character = some value) :
    character = Nat.digitChar value ∨ character = (Nat.digitChar value).toUpper := by
  have ten : ∀ digit < 10, Char.ofNat (0x30 + digit) = Nat.digitChar digit := by decide
  have upper : ∀ digit < 6,
      Char.ofNat (0x41 + digit) = (Nat.digitChar (digit + 10)).toUpper := by decide
  have lower : ∀ digit < 6, Char.ofNat (0x61 + digit) = Nat.digitChar (digit + 10) := by decide
  have named (start : Nat) (above : start ≤ character.toNat) :
      Char.ofNat (start + (character.toNat - start)) = character := by
    rw [Nat.add_sub_cancel' above, Char.ofNat_toNat]
  simp only [alphanumericValue?] at read
  split at read
  · obtain rfl := Option.some.inj read
    rw [← ten (character.toNat - 0x30) (by omega), named 0x30 (by omega)]
    exact .inl rfl
  · split at read
    · obtain rfl := Option.some.inj read
      rw [← upper (character.toNat - 0x41) (by omega), named 0x41 (by omega)]
      exact .inr rfl
    · split at read
      · obtain rfl := Option.some.inj read
        rw [← lower (character.toNat - 0x61) (by omega), named 0x61 (by omega)]
        exact .inl rfl
      · cases read

theorem digit?_eq_some_iff : base.digit? character = some value ↔ base.IsDigit character value := by
  rw [Base.digit?, Option.filter_eq_some_iff, decide_eq_true_eq]
  constructor
  · rintro ⟨read, small⟩
    exact ⟨small, eq_digitChar_of_alphanumericValue? (small.trans_le (radix_le base)) read⟩
  · intro digit
    exact ⟨alphanumericValue?_of_isDigit digit, digit.1⟩

/-- What is true of all digits and letters of the widest notation is true of every digit. -/
theorem holds_of_isDigit (test : Char → Bool) (digit : base.IsDigit character value)
    (all : ∀ value < 16,
      test (Nat.digitChar value) = true ∧ test (Nat.digitChar value).toUpper = true) :
    test character = true := by
  obtain ⟨small, rfl | rfl⟩ := digit
  · exact (all value (small.trans_le (radix_le base))).1
  · exact (all value (small.trans_le (radix_le base))).2

theorem ne_of_isDigit (digit : base.IsDigit character value) (mark : Char)
    (other : mark.isAlphanum = false) : character ≠ mark :=
  Text.ne_of_class (holds_of_isDigit Char.isAlphanum digit (by decide)) mark other

theorem ne_underscore_of_isDigit (digit : base.IsDigit character value) : character ≠ '_' :=
  ne_of_isDigit digit '_' (by decide)

theorem eq_zero_iff (digit : base.IsDigit character value) : character = '0' ↔ value = 0 := by
  constructor
  · rintro rfl
    exact (Option.some.inj (alphanumericValue?_of_isDigit digit)).symm
  · rintro rfl
    exact digit.2.elim id id

theorem isBlank_of_isDigit (digit : base.IsDigit character value) :
    Text.isBlank character = false := by
  have inked := holds_of_isDigit (!Text.isBlank ·) digit (by decide)
  rwa [Bool.not_eq_true'] at inked

end Digits

theorem ofMark?_eq_some_iff {mark : Char} {base : Base} :
    Base.ofMark? mark = some base ↔ mark ∈ base.marks := by
  constructor
  · intro selected
    unfold Base.ofMark? at selected
    split at selected <;> cases selected <;> decide
  · intro listed
    cases base <;> simp only [Base.marks, List.mem_cons, List.not_mem_nil, or_false] at listed <;>
      obtain rfl | rfl := listed <;> rfl

section Words

variable {base : Base} {character : Char} {word : List Char} {digits : List Nat}

theorem mapM_cons_iff : (character :: word).mapM base.digit? = some digits ↔
    ∃ value later, digits = value :: later ∧ base.IsDigit character value ∧
      word.mapM base.digit? = some later := by
  rw [List.mapM_cons]
  simp only [Option.bind_eq_bind, Option.bind_eq_some_iff, Option.pure_def, Option.some.injEq,
    digit?_eq_some_iff]
  constructor
  · rintro ⟨value, digit, later, rest, rfl⟩
    exact ⟨value, later, rfl, digit, rest⟩
  · rintro ⟨value, later, rfl, digit, rest⟩
    exact ⟨value, digit, later, rest, rfl⟩

theorem mapM_filter_cons_iff (other : character ≠ '_') :
    ((character :: word).filter (· != '_')).mapM base.digit? = some digits ↔
      ∃ value later, digits = value :: later ∧ base.IsDigit character value ∧
        (word.filter (· != '_')).mapM base.digit? = some later := by
  have kept : (character != '_') = true := bne_iff_ne.mpr other
  rw [List.filter_cons, if_pos kept]
  exact mapM_cons_iff

theorem all_zero_iff (read : word.mapM base.digit? = some digits) :
    (∀ character ∈ word, character = '0') ↔ ∀ digit ∈ digits, digit = 0 := by
  induction word generalizing digits with
  | nil =>
      cases read
      simp
  | cons first rest ih =>
      obtain ⟨value, later, rfl, digit, others⟩ := mapM_cons_iff.mp read
      rw [List.forall_mem_cons, List.forall_mem_cons, eq_zero_iff digit, ih others]

end Words

namespace Spaced

variable {base : Base} {word : List Char} {digits : List Nat}

theorem exists_cons (spaced : Spaced base word digits) :
    ∃ first rest value, word = first :: rest ∧ digits.head? = some value ∧
      base.IsDigit first value := by
  cases spaced with
  | last digit => exact ⟨_, _, _, rfl, rfl, digit⟩
  | next digit => exact ⟨_, _, _, rfl, rfl, digit⟩
  | gap digit => exact ⟨_, _, _, rfl, rfl, digit⟩

theorem exists_getLast (spaced : Spaced base word digits) :
    ∃ last value, word.getLast? = some last ∧ base.IsDigit last value := by
  induction spaced with
  | last digit => exact ⟨_, _, rfl, digit⟩
  | next digit later ih =>
      obtain ⟨last, value, ends, found⟩ := ih
      exact ⟨last, value, by rw [List.getLast?_cons, ends]; rfl, found⟩
  | gap digit later ih =>
      obtain ⟨last, value, ends, found⟩ := ih
      exact ⟨last, value, by rw [List.getLast?_cons, List.getLast?_cons, ends]; rfl, found⟩

theorem separated_eq (spaced : Spaced base word digits) : separated word = true := by
  induction spaced with
  | last digit => simp [separated, ne_underscore_of_isDigit digit]
  | next digit later ih =>
      obtain ⟨first, rest, value, rfl, -, second⟩ := later.exists_cons
      rw [separated]
      · exact ih
      · exact fun same => ne_underscore_of_isDigit digit same
      · exact fun same => ne_underscore_of_isDigit second same
  | gap digit later ih =>
      rw [separated]
      · exact ih
      · exact fun same => ne_underscore_of_isDigit digit same

theorem mapM_eq (spaced : Spaced base word digits) :
    (word.filter (· != '_')).mapM base.digit? = some digits := by
  induction spaced with
  | last digit =>
      exact (mapM_filter_cons_iff (ne_underscore_of_isDigit digit)).mpr ⟨_, [], rfl, digit, rfl⟩
  | next digit later ih =>
      exact (mapM_filter_cons_iff (ne_underscore_of_isDigit digit)).mpr ⟨_, _, rfl, digit, ih⟩
  | gap digit later ih =>
      exact (mapM_filter_cons_iff (ne_underscore_of_isDigit digit)).mpr ⟨_, _, rfl, digit, ih⟩

end Spaced

/-- The cases follow the look-ahead of `separated`: a digit alone, a digit before an underscore,
and a digit before another one. -/
theorem spaced_of_separated {base : Base} {word : List Char} (apart : separated word = true)
    {digits : List Nat} (read : (word.filter (· != '_')).mapM base.digit? = some digits) :
    Spaced base word digits := by
  fun_induction separated word generalizing digits with
  | case1 => cases apart
  | case2 => cases apart
  | case3 character other =>
      obtain ⟨value, later, rfl, digit, rest⟩ := (mapM_filter_cons_iff other).mp read
      cases rest
      exact .last digit
  | case4 => cases apart
  | case5 character word other ih =>
      obtain ⟨value, later, rfl, digit, rest⟩ := (mapM_filter_cons_iff other).mp read
      exact .gap digit (ih apart rest)
  | case6 character next word other _ ih =>
      obtain ⟨value, later, rfl, digit, rest⟩ := (mapM_filter_cons_iff other).mp read
      exact .next digit (ih apart rest)

theorem leadingZeroFree_iff {characters : List Char} {digits : List Nat}
    (read : characters.mapM Base.decimal.digit? = some digits) :
    leadingZeroFree characters = true ↔ Unpadded digits := by
  cases characters with
  | nil =>
      cases read
      exact iff_of_true rfl nofun
  | cons first rest =>
      obtain ⟨value, later, rfl, digit, others⟩ := mapM_cons_iff.mp read
      rw [Unpadded, List.head?_cons, Option.some.injEq]
      by_cases zero : first = '0'
      · obtain rfl := (eq_zero_iff digit).mp zero
        subst zero
        have all : leadingZeroFree ('0' :: rest) = true ↔ ∀ character ∈ rest, character = '0' := by
          simp [leadingZeroFree]
        rw [all, all_zero_iff others, List.forall_mem_cons]
        simp
      · have free : leadingZeroFree (first :: rest) = true := by
          unfold leadingZeroFree
          split
          · rename_i same
            exact absurd (List.cons.inj same).1 zero
          · rfl
        exact iff_of_true free fun same => absurd ((eq_zero_iff digit).mpr same) zero

theorem digits?_eq_some_iff {base : Base} {word : List Char} {digits : List Nat} :
    digits? base word = some digits ↔
      Spaced base word digits ∧ (base = .decimal → Unpadded digits) := by
  constructor
  · intro read
    simp only [digits?] at read
    split at read
    · rename_i passed
      rw [Bool.and_eq_true, Bool.or_eq_true, bne_iff_ne] at passed
      obtain ⟨apart, free⟩ := passed
      refine ⟨spaced_of_separated apart read, ?_⟩
      rintro rfl
      exact (leadingZeroFree_iff read).mp (free.resolve_left (absurd rfl))
    · cases read
  · rintro ⟨spaced, unpadded⟩
    have passed : (separated word &&
        (base != .decimal || leadingZeroFree (word.filter (· != '_')))) = true := by
      rw [Bool.and_eq_true, Bool.or_eq_true, bne_iff_ne]
      refine ⟨spaced.separated_eq, (Decidable.em (base = .decimal)).symm.imp_right ?_⟩
      rintro rfl
      exact (leadingZeroFree_iff spaced.mapM_eq).mpr (unpadded rfl)
    simp only [digits?]
    rw [if_pos passed]
    exact spaced.mapM_eq

theorem based_of_mem_marks {base : Base} {mark : Char} (selects : mark ∈ base.marks)
    (rest : List Char) : based ('0' :: mark :: rest) = (base, dropUnderscore rest) := by
  rw [based, ofMark?_eq_some_iff.mpr selects]

theorem based_marked {base : Base} {mark : Char} {gap word : List Char} {digits : List Nat}
    (selects : mark ∈ base.marks) (single : gap = [] ∨ gap = ['_'])
    (spaced : Spaced base word digits) : based ('0' :: mark :: (gap ++ word)) = (base, word) := by
  have behind : dropUnderscore (gap ++ word) = word := by
    obtain ⟨first, rest, value, rfl, -, digit⟩ := spaced.exists_cons
    obtain rfl | rfl := single
    · unfold dropUnderscore
      split
      · rename_i same
        exact absurd (List.cons.inj same).1 (ne_underscore_of_isDigit digit)
      · rfl
    · rfl
  rw [based_of_mem_marks selects, behind]

theorem ofMark?_eq_none {character : Char} {value : Nat}
    (digit : Base.decimal.IsDigit character value) : Base.ofMark? character = none := by
  have none : ∀ value < 10, Base.ofMark? (Nat.digitChar value) = none ∧
      Base.ofMark? (Nat.digitChar value).toUpper = none := by
    decide
  obtain ⟨small, rfl | rfl⟩ := digit
  · exact (none value small).1
  · exact (none value small).2

/-- What stands behind a first digit in a decimal word is no base mark. -/
theorem based_plain {word : List Char} {digits : List Nat} (spaced : Spaced .decimal word digits) :
    based word = (.decimal, word) := by
  have unmarked (first second : Char) (rest : List Char) (none : Base.ofMark? second = none) :
      based (first :: second :: rest) = (.decimal, first :: second :: rest) := by
    unfold based
    split
    · rename_i same
      obtain ⟨rfl, rfl, rfl⟩ := same
      rw [none]
    · rfl
  cases spaced with
  | last digit =>
      unfold based
      split
      · rename_i same
        cases same
      · rfl
  | next digit later =>
      obtain ⟨second, rest, value, rfl, -, second⟩ := later.exists_cons
      exact unmarked _ _ rest (ofMark?_eq_none second)
  | gap digit later => exact unmarked _ '_' _ (by decide)

theorem based_cases (word : List Char) :
    (∃ base mark gap rest, mark ∈ base.marks ∧ (gap = [] ∨ gap = ['_']) ∧
        word = '0' :: mark :: (gap ++ rest) ∧ based word = (base, rest)) ∨
      based word = (.decimal, word) := by
  have dropped (rest : List Char) :
      ∃ gap, (gap = [] ∨ gap = ['_']) ∧ rest = gap ++ dropUnderscore rest := by
    unfold dropUnderscore
    split
    · exact ⟨['_'], .inr rfl, rfl⟩
    · exact ⟨[], .inl rfl, rfl⟩
  unfold based
  split
  · rename_i mark rest
    cases selected : Base.ofMark? mark with
    | none => exact .inr rfl
    | some base =>
        obtain ⟨gap, single, whole⟩ := dropped rest
        exact .inl ⟨base, mark, gap, dropUnderscore rest, ofMark?_eq_some_iff.mp selected, single,
          congrArg ('0' :: mark :: ·) whole, rfl⟩
  · exact .inr rfl

/-- The number that an unsigned literal denotes. -/
def unsigned? (word : List Char) : Option Nat :=
  (digits? (based word).1 (based word).2).map (ofDigits (based word).1.radix)

theorem unsigned?_eq_some_iff {word : List Char} {value : Nat} :
    unsigned? word = some value ↔ Unsigned word value := by
  unfold unsigned?
  constructor
  · intro read
    obtain ⟨digits, found, rfl⟩ := Option.map_eq_some_iff.mp read
    obtain ⟨spaced, unpadded⟩ := digits?_eq_some_iff.mp found
    rw [ofDigits_eq]
    obtain ⟨base, mark, gap, rest, selects, single, rfl, split⟩ | split := based_cases word
    · rw [split] at spaced ⊢
      exact .marked selects single spaced
    · rw [split] at spaced unpadded ⊢
      exact .plain spaced (unpadded rfl)
  · intro unsigned
    cases unsigned with
    | @marked base mark gap word digits selects single spaced =>
        have other : base ≠ .decimal := by
          rintro rfl
          cases selects
        have found := digits?_eq_some_iff.mpr ⟨spaced, fun same => absurd same other⟩
        rw [based_marked selects single spaced, ← ofDigits_eq]
        exact congrArg (Option.map _) found
    | plain spaced unpadded =>
        rw [based_plain spaced, ← ofDigits_eq]
        exact congrArg (Option.map _) (digits?_eq_some_iff.mpr ⟨spaced, fun _ => unpadded⟩)

/-- An unsigned word starts with a decimal digit. -/
theorem Unsigned.exists_cons {word : List Char} {value : Nat} (unsigned : Unsigned word value) :
    ∃ first rest digit, word = first :: rest ∧ Base.decimal.IsDigit first digit := by
  cases unsigned with
  | marked => exact ⟨_, _, 0, rfl, by decide, .inl rfl⟩
  | plain spaced =>
      obtain ⟨first, rest, digit, same, -, isDigit⟩ := spaced.exists_cons
      exact ⟨first, rest, digit, same, isDigit⟩

theorem Unsigned.exists_getLast {word : List Char} {value : Nat} (unsigned : Unsigned word value) :
    ∃ last, word.getLast? = some last ∧ Text.isBlank last = false := by
  cases unsigned with
  | @marked base mark gap word digits selects single spaced =>
      obtain ⟨last, digit, ends, isDigit⟩ := spaced.exists_getLast
      refine ⟨last, ?_, isBlank_of_isDigit isDigit⟩
      rw [List.getLast?_cons, List.getLast?_cons, List.getLast?_append, ends]
      rfl
  | plain spaced =>
      obtain ⟨last, digit, ends, isDigit⟩ := spaced.exists_getLast
      exact ⟨last, ends, isBlank_of_isDigit isDigit⟩

/-- The integer that a word with a sign or without one denotes. -/
def signed? (word : List Char) : Option Int :=
  (unsigned? (signed word).2).map fun magnitude : Nat =>
    if (signed word).1 then -(magnitude : Int) else magnitude

theorem signed_bare {first : Char} (minus : first ≠ '-') (plus : first ≠ '+') {rest : List Char} :
    signed (first :: rest) = (false, first :: rest) := by
  unfold signed
  split
  · rename_i same
    exact absurd (List.cons.inj same).1 minus
  · rename_i same
    exact absurd (List.cons.inj same).1 plus
  · rfl

theorem signed?_eq_some_iff {word : List Char} {value : Int} :
    signed? word = some value ↔ Signed word value := by
  unfold signed?
  rw [Option.map_eq_some_iff]
  constructor
  · rintro ⟨magnitude, read, rfl⟩
    have unsigned := unsigned?_eq_some_iff.mp read
    unfold signed at unsigned ⊢
    split at unsigned
    · exact .minus unsigned
    · exact .plus unsigned
    · exact .bare unsigned
  · rintro (unsigned | unsigned | unsigned)
    · obtain ⟨first, rest, digit, rfl, isDigit⟩ := unsigned.exists_cons
      have apart := ne_of_isDigit isDigit
      rw [signed_bare (apart '-' (by decide)) (apart '+' (by decide))]
      exact ⟨_, unsigned?_eq_some_iff.mpr unsigned, rfl⟩
    · exact ⟨_, unsigned?_eq_some_iff.mpr unsigned, rfl⟩
    · exact ⟨_, unsigned?_eq_some_iff.mpr unsigned, rfl⟩

namespace Signed

variable {word : List Char} {value : Int}

theorem exists_cons (isSigned : Signed word value) :
    ∃ first rest, word = first :: rest ∧ Text.isBlank first = false := by
  cases isSigned with
  | bare unsigned =>
      obtain ⟨first, rest, digit, same, isDigit⟩ := unsigned.exists_cons
      exact ⟨first, rest, same, isBlank_of_isDigit isDigit⟩
  | plus => exact ⟨'+', _, rfl, by decide⟩
  | minus => exact ⟨'-', _, rfl, by decide⟩

theorem exists_getLast (isSigned : Signed word value) :
    ∃ last, word.getLast? = some last ∧ Text.isBlank last = false := by
  have behind (sign : Char) {rest : List Char} {magnitude : Nat}
      (unsigned : Unsigned rest magnitude) :
      ∃ last, (sign :: rest).getLast? = some last ∧ Text.isBlank last = false := by
    obtain ⟨last, ends, inked⟩ := unsigned.exists_getLast
    exact ⟨last, by rw [List.getLast?_cons, ends]; rfl, inked⟩
  cases isSigned with
  | bare unsigned => exact unsigned.exists_getLast
  | plus unsigned => exact behind '+' unsigned
  | minus unsigned => exact behind '-' unsigned

end Signed

/-- Trimming takes away the blanks around a word and no more. -/
theorem denotes_iff {literal : String} {value : Int} :
    Denotes literal value ↔ Signed (Text.trimmed literal.toList) value := by
  constructor
  · rintro ⟨before, word, after, whole, blank, blanks, isSigned⟩
    obtain ⟨first, rest, rfl, inked⟩ := isSigned.exists_cons
    obtain ⟨last, ends, stops⟩ := isSigned.exists_getLast
    have same : Text.trimmed literal.toList = first :: rest := by
      rw [Text.trimmed, whole, List.append_assoc, List.dropWhile_append_of_pos blank,
        List.cons_append, List.dropWhile_cons_of_neg (by simp [inked]), ← List.cons_append]
      refine Text.dropEndWhile_append blanks fun found member => ?_
      rw [ends] at member
      exact Option.some.inj member ▸ stops
    rwa [same]
  · intro isSigned
    obtain ⟨after, ends, blanks⟩ :=
      Text.exists_dropped Text.isBlank (literal.toList.dropWhile Text.isBlank)
    refine ⟨literal.toList.takeWhile Text.isBlank, _, after, ?_, ?_, blanks, isSigned⟩
    · rw [List.append_assoc, Text.trimmed, ← ends, List.takeWhile_append_dropWhile]
    · exact fun character member => List.mem_takeWhile_imp member

/-- The reader accepts exactly the literals of the grammar. -/
theorem value?_eq_some_iff {literal : String} {value : Int} :
    value? literal = some value ↔ Denotes literal value := by
  have read : value? literal = signed? (Text.trimmed literal.toList) := by
    simp only [value?, Parts.ofLiteral?, signed?, unsigned?, Option.map_map]
    rfl
  rw [read, signed?_eq_some_iff, denotes_iff]

end BusTables.Numeral
