import BusTables.Proofs.Emission.Comments
import BusTables.Proofs.Emission.Uncommented
import BusTables.Proofs.Text.Remarks

/-!
# Comments are remarks

Comments add remarks to the text, which are whole lines, and nothing else: the lines that are no
remarks are those of the text without comments (`text_remarks`).  A comment stands before the
fields of its command, so it comes last nowhere and no separator hangs on it.
-/

namespace BusTables

namespace Initializer

/-- All lines of comments pass a test. -/
def Commenting (test : List Char → Bool) : Prop :=
  ∀ columns depth line, test (lineAt columns depth (commentText line)) = true

section Remaining

variable {test : List Char → Bool} (columns depth : Nat) (isLast : Bool)

theorem remaining_comment (comments : Commenting test) (text : String) :
    Text.remaining test ((Item.comment text).lines columns depth isLast) = [] := by
  have whole := whole_lines columns depth isLast (.comment text) .comment
  rw [Text.remaining_of_whole test whole, List.filter_eq_nil_iff]
  intro line member
  obtain ⟨part, -, rfl⟩ := List.mem_map.mp member
  simp [comments columns depth part]

/-- Items that leave the same lines one by one leave the same lines together. -/
theorem remaining_allLines {α : Type} {first second : α → Item}
    (same : ∀ (isLast : Bool) (given : α),
      Text.remaining test ((first given).lines columns depth isLast) =
        Text.remaining test ((second given).lines columns depth isLast)) (items : List α) :
    Text.remaining test (Item.allLines columns depth (items.map first)) =
      Text.remaining test (Item.allLines columns depth (items.map second)) := by
  induction items with
  | nil => rfl
  | cons given later ih =>
      rw [List.map_cons, List.map_cons, Item.allLines, Item.allLines, Text.remaining_append,
        Text.remaining_append, ih, List.isEmpty_map, List.isEmpty_map, same]

theorem remaining_block (header : Option String) {items others : List Item}
    (same : Text.remaining test (Item.allLines columns (depth + 1) items) =
      Text.remaining test (Item.allLines columns (depth + 1) others)) :
    Text.remaining test ((Item.block header items).lines columns depth isLast) =
      Text.remaining test ((Item.block header others).lines columns depth isLast) := by
  rw [Item.lines, Item.lines, Text.remaining_cons, Text.remaining_append, same,
    Text.remaining_cons, Text.remaining_append]

end Remaining

/-- The text starts with a character that is neither blank nor a solidus. -/
def Inked (text : String) : Prop :=
  text.toList.head?.any (fun first => !Text.isBlank first && first != '/') = true
  deriving Decidable

theorem Inked.first {text : String} (inked : Inked text) :
    ∃ first rest, text.toList = first :: rest ∧ Text.isBlank first = false ∧ first ≠ '/' := by
  unfold Inked at inked
  cases characters : text.toList with
  | nil => simp [characters] at inked
  | cons first rest => exact ⟨first, rest, rfl, by simpa [characters] using inked⟩

theorem Inked.append {text : String} (inked : Inked text) (rest : String) :
    Inked (text ++ rest) := by
  obtain ⟨first, others, starts, -⟩ := inked.first
  simpa [Inked, starts] using inked

/-- No line of an item passes a test. -/
def Item.Free (test : List Char → Bool) (item : Item) : Prop :=
  ∀ columns depth isLast, ∀ line ∈ item.lines columns depth isLast, test line = false

theorem free_allLines {test : List Char → Bool} {items : List Item}
    (free : ∀ item ∈ items, item.Free test) (columns depth : Nat) :
    ∀ line ∈ Item.allLines columns depth items, test line = false := by
  induction items with
  | nil => exact fun line member => absurd member List.not_mem_nil
  | cons item later ih =>
      intro line member
      rcases List.mem_append.mp member with first | rest
      · exact free item List.mem_cons_self columns depth _ line first
      · exact ih (fun other among => free other (List.mem_cons_of_mem item among)) line rest

section Free

variable {blank : Char → Bool} (space : blank ' ' = true)
  (blanks : ∀ character, blank character = true → Text.isBlank character = true)

include space blanks

theorem isRemark_lineAt {first : Char} (inked : Text.isBlank first = false) (other : first ≠ '/')
    (columns depth : Nat) (rest : List Char) :
    Text.isRemark blank (lineAt columns depth (first :: rest)) = false := by
  refine Text.isRemark_indented_of_ne space _ ?_ other rest
  rw [Bool.eq_false_iff]
  intro given
  rw [blanks first given] at inked
  cases inked

theorem isRemark_ended {first : Char} (inked : Text.isBlank first = false) (other : first ≠ '/')
    (columns level depth : Nat) (isLast : Bool) (rest : List Char) :
    ∀ line ∈ ended depth isLast (lineAt columns level (first :: rest)),
      Text.isRemark blank line = false := by
  have bare (more : List Char) :
      Text.isRemark blank (lineAt columns level (first :: rest) ++ more) = false := by
    rw [lineAt, List.append_assoc]
    exact isRemark_lineAt space blanks inked other columns level (rest ++ more)
  have whole := bare []
  rw [List.append_nil] at whole
  intro line member
  unfold ended at member
  split at member
  · rcases List.mem_pair.mp member with rfl | rfl
    · exact bare [';']
    · rfl
  · split at member
    · rw [List.mem_singleton.mp member, whole]
    · rw [List.mem_singleton.mp member, bare]

theorem free_value {text : String} (inked : Inked text) :
    (Item.value text).Free (Text.isRemark blank) := by
  intro columns depth isLast line member
  obtain ⟨first, rest, starts, bare, other⟩ := inked.first
  rw [Item.lines, starts] at member
  exact isRemark_ended space blanks bare other columns depth depth isLast rest line member

theorem free_block {header : Option String} (inked : ∀ text ∈ header, Inked text)
    {items : List Item} (free : ∀ item ∈ items, item.Free (Text.isRemark blank)) :
    (Item.block header items).Free (Text.isRemark blank) := by
  intro columns depth isLast line member
  rw [Item.lines, List.mem_cons, List.mem_append] at member
  rcases member with rfl | inside | closing
  · cases header with
    | none => exact isRemark_lineAt space blanks (by decide) (by decide) columns depth []
    | some text =>
        obtain ⟨first, rest, starts, bare, other⟩ := (inked text rfl).first
        simp only [openingText, Option.map_some, Option.getD_some, starts, List.cons_append]
        exact isRemark_lineAt space blanks bare other columns depth _
  · exact free_allLines free columns (depth + 1) line inside
  · exact isRemark_ended space blanks (by decide) (by decide) columns depth depth isLast [] line
      closing

end Free

end Initializer

open Initializer

namespace Declaration

section Remaining

variable {test : List Char → Bool} (columns depth : Nat) (isLast : Bool)

theorem remaining_commandItem (comments : Commenting test) (address : UInt16)
    (entry : PlacedCommand) :
    Text.remaining test ((commandItem address entry.uncommented).lines columns depth isLast) =
      Text.remaining test ((commandItem address entry).lines columns depth isLast) := by
  rw [commandItem_eq, commandItem_eq]
  refine remaining_block columns depth isLast none ?_
  change Text.remaining test (Item.allLines columns (depth + 1)
    (fields (commandPairs address entry))) = _
  unfold commentItems
  split
  · rfl
  · -- The fields behind the comment end as they do without it: the last of them is the same.
    rw [List.singleton_append, Item.allLines, Text.remaining_append,
      remaining_comment columns (depth + 1) _ comments, List.nil_append]

theorem header_uncommented (declaration : Declaration) :
    declaration.uncommented.header = declaration.header := by
  cases declaration <;> simp [uncommented, header, type, name, length]

theorem slaveItem_uncommented (slave : Slave) : slaveItem slave.uncommented = slaveItem slave := by
  rw [slaveItem, slaveItem, Slave.uncommented, List.length_map]

theorem remaining_item (comments : Commenting test) (declaration : Declaration) :
    Text.remaining test (declaration.uncommented.item.lines columns depth isLast) =
      Text.remaining test (declaration.item.lines columns depth isLast) := by
  rw [item, item, header_uncommented]
  refine remaining_block columns depth isLast _ ?_
  cases declaration with
  | bytes | root => rfl
  | commands address entries =>
      rw [uncommented, items, items, List.map_map]
      exact remaining_allLines columns (depth + 1)
        (fun last entry => remaining_commandItem columns (depth + 1) last comments address entry)
        entries
  | slaves entries =>
      rw [uncommented, items, items, List.map_map]
      exact congrArg _ (congrArg _ (congrArg (List.map · _) (funext slaveItem_uncommented)))

end Remaining

theorem inked_field (name value : String) : Inked ("." ++ name ++ " = " ++ value) := by
  rw [String.append_assoc, String.append_assoc]
  exact Inked.append (by decide) _

theorem inked_header (declaration : Declaration) : Inked declaration.header := by
  have types : ∀ text ∈ types, Inked text := by decide
  have start : Inked (declaration.type ++ " " ++ declaration.name) :=
    ((types _ declaration.type_mem).append " ").append declaration.name
  cases declaration with
  | bytes | commands | slaves => exact start.append _
  | root => exact start

theorem inked_row {row : Payload} (nonempty : row ≠ []) :
    Inked (Text.listed (row.map UInt8.toNat)) := by
  have numbers : row.map UInt8.toNat ≠ [] := by simpa using nonempty
  obtain ⟨first, starts, digit⟩ := Text.head?_listed numbers
  simp [Inked, starts, Text.isBlank_of_isDigit digit, Text.ne_of_class digit '/' (by decide)]

section Free

variable {blank : Char → Bool} (space : blank ' ' = true)
  (blanks : ∀ character, blank character = true → Text.isBlank character = true)

include space blanks

theorem free_fields (pairs : List (String × String)) :
    ∀ item ∈ fields pairs, item.Free (Text.isRemark blank) := by
  intro item member
  obtain ⟨pair, -, rfl⟩ := List.mem_map.mp member
  exact free_value space blanks (inked_field pair.1 pair.2)

/-- Where comments are empty, no line of a declaration is a remark. -/
theorem free_item {declaration : Declaration} (filled : declaration.Filled) :
    declaration.uncommented.item.Free (Text.isRemark blank) := by
  refine free_block space blanks (fun text given => ?_) fun item member => ?_
  · rw [← Option.mem_some.mp given]
    exact declaration.uncommented.inked_header
  · cases declaration with
    | bytes address rows =>
        obtain ⟨row, given, rfl⟩ := List.mem_map.mp member
        rw [rowItem_eq]
        exact free_value space blanks (inked_row (filled.2 row given))
    | commands address entries =>
        obtain ⟨bare, given, rfl⟩ := List.mem_map.mp member
        obtain ⟨entry, -, rfl⟩ := List.mem_map.mp given
        exact free_block space blanks (by simp)
          (free_fields space blanks (commandPairs address entry.uncommented))
    | slaves entries =>
        obtain ⟨slave, -, rfl⟩ := List.mem_map.mp member
        exact free_block space blanks (by simp) (free_fields space blanks (slavePairs slave))
    | root count => exact free_fields space blanks (rootPairs count) item member

end Free

end Declaration

section Lines

variable {blank : Char → Bool} (space : blank ' ' = true)
  (blanks : ∀ character, blank character = true → Text.isBlank character = true)
  (configuration : Configuration)

include space blanks

theorem commenting_isRemark : Commenting (Text.isRemark blank) := by
  have mark : blank '/' = false := by
    rw [Bool.eq_false_iff]
    exact fun given => absurd (blanks '/' given) (by decide)
  exact fun columns depth line => Text.isRemark_indented space _ mark (' ' :: line.toList)

theorem remaining_items :
    Text.remaining (Text.isRemark blank)
        (Item.allLines Emission.columns 0 configuration.uncommented.items) =
      Text.remaining (Text.isRemark blank)
        (Item.allLines Emission.columns 0 configuration.items) := by
  rw [Configuration.items, Configuration.declarations_uncommented, List.map_map]
  exact remaining_allLines Emission.columns 0 (fun isLast declaration =>
    declaration.remaining_item Emission.columns 0 isLast (commenting_isRemark space blanks)) _

theorem free_lines : ∀ line ∈ Item.allLines Emission.columns 0 configuration.uncommented.items,
    Text.isRemark blank line = false := by
  refine free_allLines (fun item member => ?_) Emission.columns 0
  rw [Configuration.items, Configuration.declarations_uncommented, List.map_map] at member
  obtain ⟨declaration, declared, rfl⟩ := List.mem_map.mp member
  exact Declaration.free_item space blanks (Configuration.filled_of_mem_declarations declared)

theorem filter_lines {configuration : Configuration} (unbroken : configuration.Unbroken) :
    (Item.allLines Emission.columns 0 configuration.items).filter (!Text.isRemark blank ·) =
      Item.allLines Emission.columns 0 configuration.uncommented.items := by
  have whole := whole_allLines Emission.columns 0 _ (Configuration.legible_items unbroken)
  have bare := whole_allLines Emission.columns 0 _
    (Configuration.legible_items (Configuration.unbroken_uncommented unbroken))
  rw [← Text.remaining_of_whole _ whole, ← remaining_items space blanks,
    Text.remaining_of_whole _ bare, List.filter_eq_self]
  intro line member
  simp [free_lines space blanks configuration line member]

end Lines

/-- Whatever characters count as blank, the space among them: the text without its remarks does
not hang on the comments.  Where no name of a transition holds a line end, the text for empty
comments has the first line of the text, and then those of its lines that are no remarks. -/
theorem text_remarks {blank : Char → Bool} (space : blank ' ' = true)
    (blanks : ∀ character, blank character = true → Text.isBlank character = true)
    (header : String) (configuration : Configuration) :
    Text.withoutLines (Text.isRemark blank) (Emission.text header configuration).toList =
        Text.withoutLines (Text.isRemark blank)
          (Emission.text header configuration.uncommented).toList ∧
      (configuration.Unbroken → ∃ lines : List (List Char), (∀ line ∈ lines, '\n' ∉ line) ∧
        (Emission.text header configuration).toList =
          (Emission.inclusionLine header).toList ++ Text.unlines lines ∧
        (Emission.text header configuration.uncommented).toList =
          (Emission.inclusionLine header).toList ++
            Text.unlines (lines.filter (!Text.isRemark blank ·))) := by
  have same := remaining_items space blanks configuration
  constructor
  · rw [Emission.toList_text, Emission.toList_text, Text.withoutLines_unlines,
      Text.withoutLines_unlines]
    simp only [Text.remaining_cons, same]
  · intro unbroken
    have whole := whole_allLines Emission.columns 0 _ (Configuration.legible_items unbroken)
    have rest := filter_lines space blanks unbroken
    refine ⟨[] :: Item.allLines Emission.columns 0 configuration.items, ?_, ?_, ?_⟩
    · exact List.forall_mem_cons.mpr ⟨List.not_mem_nil, whole⟩
    · rw [Emission.toList_text]
      simp [Emission.inclusionLine]
    · rw [Emission.toList_text, List.filter_cons_of_pos (by rfl), rest]
      simp [Emission.inclusionLine]

/-- A command whose comment looks like the end of its block, a blank line and a field. -/
def disguised : Configuration :=
  ⟨[⟨1, 2, 3, 4, [⟨"\x7d;\n\n.CA = TRUE,\n// \\", ["PS"], false, 1, 0x1c12, 0, 0, [5]⟩]⟩]⟩

theorem text_remarks_disguised :
    Text.isBlank ' ' = true ∧ disguised.Unbroken ∧ ∃ lines : List (List Char),
      (Emission.text "ecat.h" disguised).toList =
        "#include \"ecat.h\"\n".toList ++ Text.unlines lines ∧
      (Emission.text "ecat.h" disguised.uncommented).toList =
        "#include \"ecat.h\"\n".toList ++
          Text.unlines (lines.filter (!Text.isRemark Text.isBlank ·)) := by
  have space : Text.isBlank ' ' = true := by decide
  have regular : disguised.Regular := by decide
  obtain ⟨-, apart⟩ := text_remarks space (fun _ => id) "ecat.h" disguised
  obtain ⟨lines, -, whole, rest⟩ := apart regular.unbroken
  exact ⟨space, regular.unbroken, lines, whole, rest⟩

end BusTables
