import BusTables.Element.Path
import BusTables.Proofs.Numeral.Grammar
import BusTables.Text.Bytes
import Mathlib.Data.Int.ModEq
import Mathlib.Data.List.Infix

/-!
# Reading literals by slices

A text is a sequence of bytes, and a slice of it may only be cut where a character ends.  The
reader here tests the first byte for a sign, cuts signs and base marks off by numbers of bytes,
asks the digits where their underscores are, and adds them up in words of fixed width, which wrap
around.  It never cuts inside a character, whatever the text is, and agrees with `read`
(`slicedRead_eq`).
-/

namespace BusTables.Numeral

/-- What a number of bytes makes up, and what stands behind; `none` if these bytes end inside a
character or if there are fewer. -/
def cut? : Nat → List Char → Option (List Char × List Char)
  | 0, characters => some ([], characters)
  | _ + 1, [] => none
  | count + 1, first :: rest =>
      if first.utf8Size ≤ count + 1 then
        (cut? (count + 1 - first.utf8Size) rest).map fun parts => (first :: parts.1, parts.2)
      else none

/-- The sign of a literal, told by its first byte, and what is behind the sign. -/
def slicedSign (characters : List Char) : Option (Bool × List Char) :=
  match (Text.bytesOf characters).head? with
  | some 0x2D => (cut? 1 characters).map fun parts => (true, parts.2)
  | some 0x2B => (cut? 1 characters).map fun parts => (false, parts.2)
  | _ => some (false, characters)

/-- The notation of an unsigned literal, told by its first two bytes in small letters, and its
digits.  Bytes that end inside a character are no base mark. -/
def slicedBase (characters : List Char) : Option (Base × List Char) :=
  let behind (base : Base) : Option (Base × List Char) :=
    (cut? 2 characters).map fun parts => (base, dropUnderscore parts.2)
  match (cut? 2 characters).map fun parts => parts.1.map Char.toLower with
  | some ['0', 'x'] => behind .hexadecimal
  | some ['0', 'o'] => behind .octal
  | some ['0', 'b'] => behind .binary
  | _ => some (.decimal, characters)

/-- Digits are missing, or an underscore does not stand between two of them. -/
def isMisplaced (characters : List Char) : Bool :=
  characters.isEmpty || characters.head? == some '_' || characters.getLast? == some '_' ||
    decide (['_', '_'] <:+: characters)

/-- The word of the digits in a list, most significant first; it wraps around. -/
def wordOf? (base : Base) (characters : List Char) : Option (BitVec width) :=
  characters.foldlM (fun total character => (base.digit? character).map fun digit =>
    total * BitVec.ofNat width base.radix + BitVec.ofNat width digit) 0

/-- The word of digits among which there may be underscores. -/
def slicedDigits? (base : Base) (characters : List Char) : Option (BitVec width) :=
  let cleaned := characters.filter (· != '_')
  if isMisplaced characters then none
  else if base == .decimal && cleaned.head? == some '0' && cleaned.any (· != '0') then none
  else wordOf? base cleaned

/-- The integer that a literal denotes, or the fault that it is; `none` if a slice would be cut
inside a character. -/
def slicedRead (literal path : String) : Option (Except Failure Int) := do
  let sign ← slicedSign (Text.trimmed literal.toList)
  let base ← slicedBase sign.2
  return match slicedDigits? base.1 base.2 with
    | some word => .ok (if sign.1 then -word else word).toInt
    | none => .error (.value (.integer literal path))

theorem cut?_one {first : Char} (single : first.utf8Size = 1) (rest : List Char) :
    cut? 1 (first :: rest) = some ([first], rest) := by
  rw [cut?, if_pos (Nat.le_of_eq single), single, cut?]
  rfl

theorem cut?_two {first second : Char} (single : first.utf8Size = 1) (other : second.utf8Size = 1)
    (rest : List Char) : cut? 2 (first :: second :: rest) = some ([first, second], rest) := by
  rw [cut?, if_pos (single.trans_le (by decide)), single, cut?_one other]
  rfl

/-- The first byte of a character is its code if that is below 128, and else no less than that. -/
theorem head?_utf8EncodeChar (character : Char) :
    ∃ lead, (String.utf8EncodeChar character).head? = some lead ∧
      (lead.toNat = character.toNat ∨ 128 ≤ lead.toNat) := by
  have marked (bits most mark : Nat) (many : 0 < most) (high : 128 ≤ mark)
      (fits : mark + most ≤ 256) : 128 ≤ (UInt8.ofNat (bits % most + mark)).toNat := by
    have small := Nat.mod_lt bits many
    rw [UInt8.toNat_ofNat', Nat.mod_eq_of_lt (by omega)]
    omega
  unfold String.utf8EncodeChar
  simp only [Char.toNat_val]
  split
  · refine ⟨_, rfl, .inl ?_⟩
    rw [UInt8.toNat_ofNat', Nat.mod_eq_of_lt (by omega)]
  · split
    · exact ⟨_, rfl, .inr (marked _ 32 192 (by decide) (by decide) (by decide))⟩
    · split
      · exact ⟨_, rfl, .inr (marked _ 16 224 (by decide) (by decide) (by decide))⟩
      · exact ⟨_, rfl, .inr (marked _ 8 240 (by decide) (by decide) (by decide))⟩

theorem head?_bytesOf_cons_ne {first mark : Char} (other : first ≠ mark)
    (ascii : mark.toNat < 128) (rest : List Char) :
    (Text.bytesOf (first :: rest)).head? ≠ some (UInt8.ofNat mark.toNat) := by
  obtain ⟨lead, leads, code⟩ := head?_utf8EncodeChar first
  rw [Text.bytesOf, List.flatMap_cons, List.head?_append, leads, Option.some_or]
  intro same
  have equal : lead.toNat = mark.toNat := by
    rw [Option.some.inj same, UInt8.toNat_ofNat', Nat.mod_eq_of_lt (by omega)]
  rcases code with code | code
  · exact other (Char.toNat_inj.mp (code.symm.trans equal))
  · omega

theorem slicedSign_eq (characters : List Char) :
    slicedSign characters = some (signed characters) := by
  rcases characters with _ | ⟨first, rest⟩
  · rfl
  · by_cases minus : first = '-'
    · subst minus
      change (cut? 1 ('-' :: rest)).map _ = _
      rw [cut?_one (by decide)]
      rfl
    by_cases plus : first = '+'
    · subst plus
      change (cut? 1 ('+' :: rest)).map _ = _
      rw [cut?_one (by decide)]
      rfl
    have bare : slicedSign (first :: rest) = some (false, first :: rest) := by
      unfold slicedSign
      split
      · rename_i same
        exact absurd same (head?_bytesOf_cons_ne minus (by decide) rest)
      · rename_i same
        exact absurd same (head?_bytesOf_cons_ne plus (by decide) rest)
      · rfl
    rw [bare, signed_bare minus plus]

theorem eq_or_of_toLower {character letter : Char} (same : character.toLower = letter) :
    character = letter ∨
      65 ≤ character.toNat ∧ character.toNat ≤ 90 ∧ character.toNat + 32 = letter.toNat := by
  unfold Char.toLower at same
  split at same
  · rename_i upper
    obtain ⟨least, most⟩ := upper
    have low : 65 ≤ character.toNat := UInt32.le_iff_toNat_le.mp least
    have high : character.toNat ≤ 90 := UInt32.le_iff_toNat_le.mp most
    subst same
    refine .inr ⟨low, high, ?_⟩
    change _ = (character.val + 32).toNat
    rw [UInt32.toNat_add]
    change _ = (character.toNat + 32) % _
    omega
  · exact .inl same

theorem append_of_cut? {count : Nat} {characters before behind : List Char}
    (found : cut? count characters = some (before, behind)) : characters = before ++ behind := by
  fun_induction cut? count characters generalizing before with
  | case1 => cases found; rfl
  | case2 => cases found
  | case3 count first rest fits ih =>
    obtain ⟨parts, inner, same⟩ := Option.map_eq_some_iff.mp found
    cases same
    exact congrArg (first :: ·) (ih inner)
  | case4 => cases found

/-- Two bytes that are a zero and a letter are two characters. -/
theorem exists_of_cut? {characters : List Char} {letter : Char}
    (found : (cut? 2 characters).map (fun parts => parts.1.map Char.toLower) = some ['0', letter]) :
    ∃ mark rest, characters = '0' :: mark :: rest ∧ mark.toLower = letter := by
  obtain ⟨⟨before, behind⟩, cut, small⟩ := Option.map_eq_some_iff.mp found
  obtain ⟨zero, later, rfl, isZero, small⟩ := List.map_eq_cons_iff.mp small
  obtain ⟨mark, last, rfl, lower, small⟩ := List.map_eq_cons_iff.mp small
  obtain rfl := List.map_eq_nil_iff.mp small
  rcases eq_or_of_toLower isZero with rfl | ⟨low, -, far⟩
  · exact ⟨mark, behind, append_of_cut? cut, lower⟩
  · change zero.toNat + 32 = 48 at far
    omega

/-- Base marks may be of either case. -/
theorem mem_marks_of_toLower {base : Base} {mark : Char} (lower : mark.toLower ∈ base.marks) :
    mark ∈ base.marks := by
  have capital : ∀ letter ∈ base.marks, 97 ≤ letter.toNat →
      Char.ofNat (letter.toNat - 32) ∈ base.marks := by
    cases base <;> simp [Base.marks]
  rcases eq_or_of_toLower (Eq.refl mark.toLower) with same | ⟨low, -, far⟩
  · rwa [← same] at lower
  · have named : Char.ofNat (mark.toLower.toNat - 32) = mark := by
      rw [← far, Nat.add_sub_cancel, Char.ofNat_toNat]
    exact named ▸ capital _ lower (by omega)

/-- Two bytes that are a zero and a mark select the notation that the characters select. -/
theorem based_of_cut? {base : Base} {characters : List Char} {letter : Char}
    (found : (cut? 2 characters).map (fun parts => parts.1.map Char.toLower) = some ['0', letter])
    (selects : letter ∈ base.marks) : (based characters).1 = base := by
  obtain ⟨mark, rest, rfl, rfl⟩ := exists_of_cut? found
  rw [based_of_mem_marks (mem_marks_of_toLower selects)]

theorem slicedBase_marked {base : Base} {mark : Char} (selects : mark ∈ base.marks)
    (rest : List Char) : slicedBase ('0' :: mark :: rest) = some (base, dropUnderscore rest) := by
  cases base <;> simp only [Base.marks, List.mem_cons, List.not_mem_nil, or_false] at selects <;>
    obtain rfl | rfl := selects <;> unfold slicedBase <;>
    rw [cut?_two (by decide) (by decide)] <;> rfl

theorem slicedBase_eq (characters : List Char) :
    slicedBase characters = some (based characters) := by
  obtain ⟨base, mark, gap, rest, selects, -, rfl, -⟩ | plain := based_cases characters
  · rw [slicedBase_marked selects, based_of_mem_marks selects]
  · have decimal : (based characters).1 = .decimal := congrArg Prod.fst plain
    unfold slicedBase
    split
    · rename_i found
      have other := @based_of_cut? .hexadecimal _ _ found (by decide)
      cases other.symm.trans decimal
    · rename_i found
      have other := @based_of_cut? .octal _ _ found (by decide)
      cases other.symm.trans decimal
    · rename_i found
      have other := @based_of_cut? .binary _ _ found (by decide)
      cases other.symm.trans decimal
    · rw [plain]

theorem separated_iff (characters : List Char) :
    separated characters = true ↔ characters ≠ [] ∧ characters.head? ≠ some '_' ∧
      characters.getLast? ≠ some '_' ∧ ¬['_', '_'] <:+: characters := by
  fun_induction separated characters with
  | case1 => simp
  | case2 => simp
  | case3 character other =>
      have inked : character ≠ '_' := other
      simp [List.infix_cons_iff, List.cons_prefix_cons, inked]
  | case4 => simp
  | case5 character rest other ih =>
      have inked : character ≠ '_' := other
      rw [ih]
      cases rest with
      | nil => simp
      | cons next later =>
          simp [List.infix_cons_iff, List.cons_prefix_cons, inked, inked.symm]
          grind
  | case6 character next rest other second ih =>
      have inked : character ≠ '_' := other
      have later : next ≠ '_' := second
      rw [ih]
      simp [List.infix_cons_iff, List.cons_prefix_cons, inked, later, inked.symm, later.symm]

theorem isMisplaced_eq (characters : List Char) :
    isMisplaced characters = !separated characters := by
  rw [Bool.eq_iff_iff, Bool.not_eq_true', Bool.eq_false_iff, Ne, separated_iff]
  simp [isMisplaced]
  grind

theorem wordOf?_eq (base : Base) (characters : List Char) :
    wordOf? base characters =
      (characters.mapM base.digit?).map fun digits =>
        BitVec.ofNat width (ofDigits base.radix digits) := by
  -- The word carried so far is that of the number carried so far, whatever that is.
  have fold (total : Nat) :
      characters.foldlM (fun total character => (base.digit? character).map fun digit =>
          total * BitVec.ofNat width base.radix + BitVec.ofNat width digit)
          (BitVec.ofNat width total) =
        (characters.mapM base.digit?).map fun digits => BitVec.ofNat width
          (digits.foldl (fun total digit => total * base.radix + digit) total) := by
    induction characters generalizing total with
    | nil => rfl
    | cons character later ih =>
        rw [List.foldlM_cons, List.mapM_cons]
        cases base.digit? character with
        | none => rfl
        | some digit =>
            have step := ih (total * base.radix + digit)
            rw [BitVec.ofNat_add, BitVec.ofNat_mul] at step
            change later.foldlM _ _ = _
            rw [step]
            cases later.mapM base.digit? <;> rfl
  exact fold 0

theorem leadingZeroFree_eq (characters : List Char) : leadingZeroFree characters =
    !(characters.head? == some '0' && characters.any (· != '0')) := by
  unfold leadingZeroFree
  split
  · simp [List.not_any_eq_all_not, bne]
  · rename_i other
    cases characters with
    | nil => rfl
    | cons first rest =>
        have leads : first ≠ '0' := fun same => other rest (same ▸ rfl)
        simp [leads]

theorem slicedDigits?_eq (base : Base) (characters : List Char) :
    slicedDigits? base characters = (digits? base characters).map fun digits =>
      BitVec.ofNat width (ofDigits base.radix digits) := by
  simp only [slicedDigits?, digits?, isMisplaced_eq, leadingZeroFree_eq, wordOf?_eq]
  cases separated characters with
  | false => rfl
  | true =>
      generalize ((characters.filter (· != '_')).head? == some '0') = zero
      generalize ((characters.filter (· != '_')).any (· != '0')) = other
      cases base <;> cases zero <;> cases other <;> rfl

/-- A word that wraps around holds the integer as far as the width goes. -/
theorem toInt_word (parts : Parts) :
    (if parts.negative then -BitVec.ofNat width (ofDigits parts.base.radix parts.digits)
      else BitVec.ofNat width (ofDigits parts.base.radix parts.digits)).toInt = parts.reduced := by
  rw [Parts.reduced_eq, Parts.value, Parts.withSign]
  split
  · rw [← BitVec.ofInt_natCast, ← BitVec.ofInt_neg, BitVec.toInt_ofInt]
    rfl
  · rw [← BitVec.ofInt_natCast, BitVec.toInt_ofInt]
    rfl

/-- No slice is cut inside a character, and the slices are read as the characters are. -/
theorem slicedRead_eq (literal path : String) :
    slicedRead literal path = some (read literal path) := by
  unfold slicedRead read read? Parts.ofLiteral?
  rw [slicedSign_eq, Option.bind_eq_bind, Option.bind_some, slicedBase_eq, Option.bind_eq_bind,
    Option.bind_some, slicedDigits?_eq]
  dsimp only
  generalize (signed (Text.trimmed literal.toList)).1 = negative
  generalize based (signed (Text.trimmed literal.toList)).2 = unsigned
  obtain ⟨base, spaced⟩ := unsigned
  cases digits? base spaced with
  | none => rfl
  | some digits => exact congrArg (some <| Except.ok ·) (toInt_word ⟨negative, base, digits⟩)

/-- What is carried of an integer is the only one of the width that is congruent to it. -/
theorem bmod_modulus_eq_iff {integer value : Int} : integer.bmod modulus = value ↔
    value ≡ integer [ZMOD 2 ^ 128] ∧ -2 ^ 127 ≤ value ∧ value < 2 ^ 127 := by
  have size : (modulus : Int) = 2 ^ 128 := by decide
  constructor
  · rintro rfl
    have least := Int.le_bmod (x := integer) (m := modulus) (by decide)
    have most := Int.bmod_lt (x := integer) (m := modulus) (by decide)
    rw [size] at least most
    refine ⟨?_, by omega, by omega⟩
    rw [Int.ModEq, ← size, Int.bmod_emod]
  · rintro ⟨congruent, least, most⟩
    rw [Int.ModEq, ← size] at congruent
    rw [← Int.emod_bmod, ← congruent, Int.emod_bmod]
    exact Int.bmod_eq_of_le (by rw [size]; omega) (by rw [size]; omega)

/-- Exactly the literals of the grammar are read, as the integers of the width that are congruent
to what they denote, and no slice is cut inside a character on the way. -/
theorem read_exactly (literal path : String) :
    slicedRead literal path = some (read literal path) ∧
      ((∃ value, read literal path = .ok value) ↔ ∃ integer, Denotes literal integer) ∧
      (∀ value, read literal path = .ok value ↔ ∃ integer, Denotes literal integer ∧
        value ≡ integer [ZMOD 2 ^ 128] ∧ -2 ^ 127 ≤ value ∧ value < 2 ^ 127) ∧
      ∀ failure, read literal path = .error failure →
        failure = .value (.integer literal path) := by
  have same : read literal path = (value? literal).elim (.error (.value (.integer literal path)))
      fun integer => .ok (integer.bmod modulus) := by
    rw [read, read?_eq]
    cases value? literal <;> rfl
  refine ⟨slicedRead_eq literal path, ?_⟩
  simp only [← value?_eq_some_iff, ← bmod_modulus_eq_iff, same]
  cases value? literal with
  | none => simp
  | some integer => simp

end BusTables.Numeral
