import BusTables.Text.Blank

/-!
# Lines of texts

A text whose lines all end is a list of lines.  Splitting it at the line ends gives the lines
back, and an empty part behind the last end (`splitOn_unlines`).
-/

namespace BusTables.Text

/-- Lines, each followed by its end. -/
def unlines (lines : List (List Char)) : List Char :=
  lines.flatMap (· ++ ['\n'])

@[simp] theorem unlines_nil : unlines [] = [] :=
  rfl

@[simp] theorem unlines_cons (line : List Char) (later : List (List Char)) :
    unlines (line :: later) = line ++ '\n' :: unlines later := by
  simp [unlines]

@[simp] theorem unlines_append (first later : List (List Char)) :
    unlines (first ++ later) = unlines first ++ unlines later := by
  simp [unlines]

/-- Lines that hold no line end are found again. -/
theorem splitOn_unlines {lines : List (List Char)} (whole : ∀ line ∈ lines, '\n' ∉ line) :
    (unlines lines).splitOn '\n' = lines ++ [[]] := by
  induction lines with
  | nil => simp
  | cons line later ih =>
      have first : '\n' ∉ line := whole line List.mem_cons_self
      have rest := ih fun other member => whole other (List.mem_cons_of_mem line member)
      rw [unlines_cons, List.splitOn_append_cons_self_of_not_mem first, rest, List.cons_append]

/-- The lines of a text are found as well if the end of the last one is missing. -/
theorem splitOn_of_ended {lines : List (List Char)} {text : List Char}
    (whole : ∀ line ∈ lines, '\n' ∉ line) (ended : text ++ ['\n'] = unlines lines) :
    text.splitOn '\n' = lines := by
  have split := splitOn_unlines whole
  rw [← ended, List.splitOn_append_cons_self, List.splitOn_nil] at split
  exact List.append_cancel_right split

theorem toList_intercalate_lines (line : String) (later : List String) :
    (String.intercalate "\n" (line :: later) ++ "\n").toList =
      unlines ((line :: later).map String.toList) := by
  induction later generalizing line with
  | nil => simp
  | cons next rest ih =>
      rw [String.intercalate_cons_cons, String.append_assoc, String.toList_append, ih next]
      simp

variable {α : Type}

theorem not_mem_of_mem_splitOn [BEq α] [LawfulBEq α] {separator : α} {items part : List α}
    (member : part ∈ items.splitOn separator) : separator ∉ part := by
  induction items generalizing part with
  | nil =>
      rw [List.splitOn_nil, List.mem_singleton] at member
      simp [member]
  | cons first rest ih =>
      rw [List.splitOn_cons_eq_if_modifyHead] at member
      split at member
      · rcases List.mem_cons.mp member with empty | later
        · simp [empty]
        · exact ih later
      · rename_i other
        obtain ⟨head, tail, parts⟩ :=
          List.exists_cons_of_ne_nil (List.splitOn_ne_nil separator rest)
        rw [parts] at member ih
        rcases List.mem_cons.mp member with same | later
        · have apart : separator ∉ head := ih List.mem_cons_self
          have different : separator ≠ first := fun same => other (beq_iff_eq.mpr same.symm)
          rw [same]
          exact List.not_mem_cons_of_ne_of_not_mem different apart
        · exact ih (List.mem_cons_of_mem head later)

theorem mem_of_mem_dropEndWhile {test : α → Bool} {items : List α} {item : α}
    (member : item ∈ dropEndWhile test items) : item ∈ items := by
  have kept := (List.dropWhile_sublist test (l := items.reverse)).subset
    (List.mem_reverse.mp member)
  exact List.mem_reverse.mp kept

end BusTables.Text
