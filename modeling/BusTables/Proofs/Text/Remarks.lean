import BusTables.Proofs.Text.Lines

/-!
# Remarks

A remark is a line whose first characters are two solidi, blanks before them apart.  Taking lines
out of a text goes line by line, so it goes part by part where a text is made of parts with line
ends behind them (`withoutLines_unlines`).
-/

namespace BusTables.Text

/-- The first characters of a line that are not blank are two solidi. -/
def isRemark (blank : Char → Bool) (line : List Char) : Bool :=
  ['/', '/'].isPrefixOf (line.dropWhile blank)

/-- A text without the lines that pass a test.  What stands behind the last line end is no line. -/
def withoutLines (test : List Char → Bool) (text : List Char) : List Char :=
  unlines ((text.splitOn '\n').dropLast.filter (!test ·)) ++ (text.splitOn '\n').getLastD []

/-- The lines of parts that fail a test, where an end is to follow each part. -/
def remaining (test : List Char → Bool) (parts : List (List Char)) : List (List Char) :=
  (parts.flatMap (·.splitOn '\n')).filter (!test ·)

theorem isBlank_of_isDigit {character : Char} (digit : character.isDigit = true) :
    isBlank character = false := by
  have bounds : 48 ≤ character.toNat ∧ character.toNat ≤ 57 := by
    simpa [Char.isDigit, UInt32.le_iff_toNat_le] using digit
  simp [isBlank]
  omega

section Indented

variable {blank : Char → Bool} (space : blank ' ' = true) (width : Nat)

include space

theorem dropWhile_indented (rest : List Char) :
    (List.replicate width ' ' ++ rest).dropWhile blank = rest.dropWhile blank := by
  refine List.dropWhile_append_of_pos fun character member => ?_
  rw [List.eq_of_mem_replicate member, space]

theorem isRemark_indented (mark : blank '/' = false) (rest : List Char) :
    isRemark blank (List.replicate width ' ' ++ '/' :: '/' :: rest) = true := by
  rw [isRemark, dropWhile_indented space]
  simp [mark]

theorem isRemark_indented_of_ne {first : Char} (inked : blank first = false) (other : first ≠ '/')
    (rest : List Char) : isRemark blank (List.replicate width ' ' ++ first :: rest) = false := by
  rw [isRemark, dropWhile_indented space]
  simp [inked, List.isPrefixOf, beq_eq_false_iff_ne.mpr other.symm]

end Indented

theorem splitOn_unlines_parts (parts : List (List Char)) :
    (unlines parts).splitOn '\n' = parts.flatMap (·.splitOn '\n') ++ [[]] := by
  induction parts with
  | nil => simp
  | cons part later ih =>
      rw [unlines_cons, List.splitOn_append_cons_self, ih, List.flatMap_cons, List.append_assoc]

variable (test : List Char → Bool)

theorem withoutLines_unlines (parts : List (List Char)) :
    withoutLines test (unlines parts) = unlines (remaining test parts) := by
  rw [withoutLines, splitOn_unlines_parts, List.dropLast_concat]
  simp [remaining]

@[simp] theorem remaining_cons (part : List Char) (later : List (List Char)) :
    remaining test (part :: later) = (part.splitOn '\n').filter (!test ·) ++
      remaining test later := by
  simp [remaining]

@[simp] theorem remaining_append (first later : List (List Char)) :
    remaining test (first ++ later) = remaining test first ++ remaining test later := by
  simp [remaining]

theorem remaining_of_whole {lines : List (List Char)} (whole : ∀ line ∈ lines, '\n' ∉ line) :
    remaining test lines = lines.filter (!test ·) := by
  have same := splitOn_unlines_parts lines
  rw [splitOn_unlines whole] at same
  rw [remaining, ← List.append_cancel_right same]

end BusTables.Text
