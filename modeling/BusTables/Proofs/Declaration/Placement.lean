import BusTables.Declaration

/-!
# The places of bytes

The offset of a command is the number of bytes that the commands before it carry
(`getElem?_place`).  So the bytes of a command stand in the concatenation of all bytes right
where its offset says (`bytes_at_offset`), and the places of commands come one after the other
(`end_le_offset`) and leave no gap (`exists_place`).
-/

namespace BusTables

namespace Command

@[simp] theorem totalSize_nil : totalSize [] = 0 :=
  rfl

@[simp] theorem totalSize_cons (command : Command) (later : List Command) :
    totalSize (command :: later) = command.data.length + totalSize later := by
  simp [totalSize]

@[simp] theorem totalSize_append (first later : List Command) :
    totalSize (first ++ later) = totalSize first + totalSize later := by
  simp [totalSize]

theorem totalSize_eq_zero_iff (commands : List Command) :
    totalSize commands = 0 ↔ ∀ command ∈ commands, command.data = [] := by
  rw [totalSize, List.length_eq_zero_iff, List.flatMap_eq_nil_iff]

/-- The number of bytes that the commands before the given place carry. -/
def sizeBefore (commands : List Command) (place : Nat) : Nat :=
  totalSize (commands.take place)

theorem sizeBefore_succ {commands : List Command} {place : Nat} {command : Command}
    (given : commands[place]? = some command) :
    sizeBefore commands (place + 1) = sizeBefore commands place + command.data.length := by
  simp [sizeBefore, List.take_add_one, given]

theorem sizeBefore_le (commands : List Command) {first later : Nat} (order : first ≤ later) :
    sizeBefore commands first ≤ sizeBefore commands later := by
  obtain ⟨gap, rfl⟩ := Nat.exists_eq_add_of_le order
  rw [sizeBefore, sizeBefore, List.take_add, totalSize_append]
  exact Nat.le_add_right _ _

end Command

open Command

/-- The commands stand in the table in their order, whatever the places of their bytes. -/
theorem map_command_placeFrom (offset : Nat) (commands : List Command) :
    (placeFrom offset commands).map (·.command) = commands := by
  induction commands generalizing offset with
  | nil => rfl
  | cons command later ih =>
      rw [placeFrom]
      split <;> simp [ih]

theorem map_command_place (commands : List Command) :
    (place commands).map (·.command) = commands :=
  map_command_placeFrom 0 commands

@[simp] theorem length_place (commands : List Command) :
    (place commands).length = commands.length := by
  rw [← List.length_map (·.command), map_command_place]

/-- Two passes agree: the running offset is the number of bytes of the commands before. -/
theorem getElem?_placeFrom (offset : Nat) (commands : List Command) (index : Nat) :
    (placeFrom offset commands)[index]? =
      commands[index]?.map fun command =>
        ⟨command, if command.data.isEmpty then none
          else some (offset + sizeBefore commands index)⟩ := by
  -- The offset differs from call to call, but only by what the commands before have added.
  induction commands generalizing offset index with
  | nil => rfl
  | cons command later ih =>
      by_cases empty : command.data = []
      · cases index with
        | zero => simp [placeFrom, empty]
        | succ index => simp [placeFrom, empty, ih, sizeBefore]
      · cases index with
        | zero => simp [placeFrom, empty, sizeBefore]
        | succ index => simp [placeFrom, empty, ih, sizeBefore, Nat.add_assoc]

theorem getElem?_place (commands : List Command) (index : Nat) :
    (place commands)[index]? =
      commands[index]?.map fun command =>
        ⟨command, if command.data.isEmpty then none else some (sizeBefore commands index)⟩ := by
  rw [place, getElem?_placeFrom]
  simp only [Nat.zero_add]

/-- A command has a place among the bytes if it carries any. -/
theorem mem_place {commands : List Command} {entry : PlacedCommand}
    (member : entry ∈ place commands) :
    entry.command ∈ commands ∧ (entry.offset.isSome ↔ entry.command.data ≠ []) := by
  obtain ⟨index, found⟩ := List.mem_iff_getElem?.mp member
  rw [getElem?_place, Option.map_eq_some_iff] at found
  obtain ⟨command, given, rfl⟩ := found
  refine ⟨List.mem_of_getElem? given, ?_⟩
  by_cases empty : command.data = []
  · simp [empty]
  · simp [empty]

theorem bytes_at_offset {commands : List Command} {index : Nat} {command : Command}
    (given : commands[index]? = some command) :
    ((commands.flatMap (·.data)).drop (sizeBefore commands index)).take command.data.length =
      command.data := by
  obtain ⟨inside, rfl⟩ := List.getElem?_eq_some_iff.mp given
  have split : commands.flatMap (·.data) =
      (commands.take index).flatMap (·.data) ++
        (commands[index].data ++ (commands.drop (index + 1)).flatMap (·.data)) := by
    rw [← List.flatMap_cons, List.getElem_cons_drop, ← List.flatMap_append, List.take_append_drop]
  rw [split, sizeBefore, totalSize, List.drop_left, List.take_left]

theorem end_le_total {commands : List Command} {index : Nat} {command : Command}
    (given : commands[index]? = some command) :
    sizeBefore commands index + command.data.length ≤ totalSize commands := by
  have whole : totalSize commands = sizeBefore commands (max commands.length (index + 1)) := by
    rw [sizeBefore, List.take_of_length_le (Nat.le_max_left _ _)]
  rw [← sizeBefore_succ given, whole]
  exact sizeBefore_le commands (Nat.le_max_right _ _)

theorem end_le_offset {commands : List Command} {first later : Nat} {command : Command}
    (given : commands[first]? = some command) (order : first < later) :
    sizeBefore commands first + command.data.length ≤ sizeBefore commands later := by
  rw [← sizeBefore_succ given]
  exact sizeBefore_le commands order

theorem exists_place {commands : List Command} {position : Nat}
    (inside : position < totalSize commands) :
    ∃ index command, commands[index]? = some command ∧ sizeBefore commands index ≤ position ∧
      position < sizeBefore commands index + command.data.length := by
  induction commands generalizing position with
  | nil => exact absurd inside (Nat.not_lt_zero position)
  | cons command later ih =>
      rw [totalSize_cons] at inside
      by_cases here : position < command.data.length
      · exact ⟨0, command, rfl, by simp [sizeBefore], by simpa [sizeBefore] using here⟩
      · have behind : position - command.data.length < totalSize later := by omega
        obtain ⟨index, other, given, lower, upper⟩ := ih behind
        refine ⟨index + 1, other, by simpa using given, ?_, ?_⟩
        · simp only [sizeBefore, List.take_succ_cons, totalSize_cons] at lower ⊢
          omega
        · simp only [sizeBefore, List.take_succ_cons, totalSize_cons] at upper ⊢
          omega

end BusTables
