import BusTables.Proofs.Text.Lines
import BusTables.Proofs.Text.Plain
import BusTables.Proofs.Text.Separated
import Mathlib.Algebra.Group.Nat.Defs

/-!
# Numbers in texts

A number is found again from its decimal digits (`decimal?_toString`), from its hexadecimal
digits as far as they reach (`hexWord_injective`), and from its place in a list of numbers with
commas between them (`decimals?_listed`).
-/

namespace BusTables.Text

/-- The number with the given decimal digits. -/
def decimal? (characters : List Char) : Option Nat :=
  if !characters.isEmpty && characters.all Char.isDigit then
    some (Nat.ofDigitChars 10 characters 0)
  else none

/-- Numbers with commas between them. -/
def listed (numbers : List Nat) : String :=
  String.intercalate ", " (numbers.map toString)

/-- The numbers between the commas of a text; blanks before a number do not count. -/
def decimals? (characters : List Char) : Option (List Nat) :=
  (characters.splitOn ',').mapM fun part => decimal? (part.dropWhile (· == ' '))

theorem toList_toString (number : Nat) : (toString number).toList = Nat.toDigits 10 number := by
  rw [Nat.toString_eq_repr, Nat.toList_repr]

theorem toList_toString_ne_nil (number : Nat) : (toString number).toList ≠ [] := by
  rw [toList_toString]
  exact Nat.toDigits_ne_nil

theorem toString_ne_empty (number : Nat) : toString number ≠ "" := by
  simp

theorem decimal?_toString (number : Nat) : decimal? (toString number).toList = some number := by
  have digits : (toString number).toList.all Char.isDigit = true :=
    List.all_eq_true.mpr fun _ member => isDigit_of_mem_toString member
  have value : Nat.ofDigitChars 10 (toString number).toList 0 = number := by
    rw [toList_toString, Nat.ofDigitChars_ten_toDigits]
  rw [decimal?, digits, value]
  simp

theorem toString_injective {first second : Nat} (same : toString first = toString second) :
    first = second := by
  have read := congrArg (decimal? ·.toList) same
  simpa only [decimal?_toString, Option.some.injEq] using read

/-- Only negative numbers have a sign. -/
theorem toString_negSucc (number : Nat) :
    toString (Int.negSucc number) = "-" ++ toString (number + 1) :=
  rfl

theorem toString_ofNat_ne_negSucc (number other : Nat) :
    toString (Int.ofNat number) ≠ toString (Int.negSucc other) := by
  intro same
  have minus : '-' ∈ (toString number).toList := by
    rw [show toString number = toString (Int.ofNat number) from rfl, same, toString_negSucc]
    simp
  exact absurd (isDigit_of_mem_toString minus) (by decide)

theorem toString_int_injective {first second : Int} (same : toString first = toString second) :
    first = second := by
  cases first with
  | ofNat number =>
      cases second with
      | ofNat other => rw [toString_injective (show toString number = toString other from same)]
      | negSucc other => exact absurd same (toString_ofNat_ne_negSucc number other)
  | negSucc number =>
      cases second with
      | ofNat other => exact absurd same.symm (toString_ofNat_ne_negSucc other number)
      | negSucc other =>
          rw [toString_negSucc, toString_negSucc, ← String.toList_inj, String.toList_append,
            String.toList_append] at same
          have digits := String.toList_inj.mp (List.append_cancel_left same)
          rw [Nat.succ.inj (toString_injective digits)]

theorem decimals?_cons_blank (characters : List Char) :
    decimals? (' ' :: characters) = decimals? characters := by
  obtain ⟨head, tail, parts⟩ := List.exists_cons_of_ne_nil (List.splitOn_ne_nil ',' characters)
  simp [decimals?, List.splitOn_cons_eq_if_modifyHead, parts]

theorem decimal?_dropWhile_toString (number : Nat) :
    decimal? ((toString number).toList.dropWhile (· == ' ')) = some number := by
  obtain ⟨first, rest, digits⟩ := List.exists_cons_of_ne_nil (toList_toString_ne_nil number)
  have inked : first ≠ ' ' := by
    rintro rfl
    exact absurd (isDigit_of_mem_toString (digits ▸ List.mem_cons_self)) (by decide)
  have same : (toString number).toList.dropWhile (· == ' ') = (toString number).toList := by
    rw [digits]
    simp [inked]
  rw [same, decimal?_toString]

theorem decimals?_listed {numbers : List Nat} (nonempty : numbers ≠ []) :
    decimals? (listed numbers).toList = some numbers := by
  induction numbers with
  | nil => exact absurd rfl nonempty
  | cons number later ih =>
      cases later with
      | nil =>
          rw [listed, List.map_singleton, String.intercalate_singleton, decimals?,
            List.splitOn_eq_singleton (not_mem_toString number (by decide)), List.mapM_cons,
            decimal?_dropWhile_toString]
          rfl
      | cons next rest =>
          have text : (listed (number :: next :: rest)).toList =
              (toString number).toList ++ ',' :: ' ' :: (listed (next :: rest)).toList := by
            simp [listed, String.intercalate_cons_cons]
          have others := ih (List.cons_ne_nil next rest)
          rw [← decimals?_cons_blank, decimals?] at others
          rw [text, decimals?, List.splitOn_append_cons_self_of_not_mem
            (not_mem_toString number (by decide)), List.mapM_cons, decimal?_dropWhile_toString,
            others]
          rfl

theorem listed_injective {first second : List Nat} (some : first ≠ []) (other : second ≠ [])
    (same : listed first = listed second) : first = second := by
  have read := congrArg (decimals? ·.toList) same
  simpa only [decimals?_listed some, decimals?_listed other, Option.some.injEq] using read

theorem head?_listed {numbers : List Nat} (nonempty : numbers ≠ []) :
    ∃ first, (listed numbers).toList.head? = some first ∧ first.isDigit = true := by
  obtain ⟨number, later, rfl⟩ := List.exists_cons_of_ne_nil nonempty
  obtain ⟨first, rest, digits⟩ := List.exists_cons_of_ne_nil (toList_toString_ne_nil number)
  refine ⟨first, ?_, isDigit_of_mem_toString (digits ▸ List.mem_cons_self)⟩
  rw [listed, List.map_cons, head?_intercalate _ _ (toString_ne_empty number), digits,
    List.head?_cons]

theorem getLast?_listed {numbers : List Nat} (nonempty : numbers ≠ []) {last : Char}
    (ends : (listed numbers).toList.getLast? = some last) : last.isDigit = true := by
  have written : ∀ text ∈ numbers.map toString, text ≠ "" := by
    intro text member
    obtain ⟨number, -, rfl⟩ := List.mem_map.mp member
    exact toString_ne_empty number
  obtain ⟨text, member, same⟩ := getLast?_intercalate ", " (by simpa using nonempty) written
  obtain ⟨number, -, rfl⟩ := List.mem_map.mp member
  rw [listed, same] at ends
  exact isDigit_of_mem_toString (List.mem_of_getLast? ends)

theorem whole_listed (numbers : List Nat) : '\n' ∉ (listed numbers).toList := by
  intro member
  rcases mem_intercalate member with ⟨text, among, inside⟩ | between
  · obtain ⟨number, -, rfl⟩ := List.mem_map.mp among
    exact absurd (isDigit_of_mem_toString inside) (by decide)
  · exact absurd between (by decide)

/-- The digits of fixed width determine what is left of a value beyond them. -/
theorem hexDigits_injective {width first second : Nat}
    (same : hexDigits width first = hexDigits width second) :
    first % 16 ^ width = second % 16 ^ width := by
  have digit : ∀ value < 16, ∀ other < 16,
      capitalDigit value = capitalDigit other → value = other := by
    decide
  induction width generalizing first second with
  | zero => simp [Nat.mod_one]
  | succ width ih =>
      -- The lowest digit stands last and determines the remainder by 16.
      rw [hexDigits, hexDigits] at same
      obtain ⟨upper, lowest⟩ := List.append_inj same (by simp)
      have lower := digit (first % 16) (Nat.mod_lt first (by decide)) (second % 16)
        (Nat.mod_lt second (by decide)) (List.cons.inj lowest).1
      rw [Nat.pow_succ', Nat.mod_mul, Nat.mod_mul, lower, ih upper]

theorem hexWord_injective {width first second : Nat} (small : first < 16 ^ width)
    (other : second < 16 ^ width) (same : hexWord width first = hexWord width second) :
    first = second := by
  rw [hexWord, hexWord, ← String.toList_inj, String.toList_append, String.toList_append] at same
  have digits := List.append_cancel_left same
  rw [String.toList_ofList, String.toList_ofList] at digits
  simpa only [Nat.mod_eq_of_lt small, Nat.mod_eq_of_lt other] using hexDigits_injective digits

end BusTables.Text
