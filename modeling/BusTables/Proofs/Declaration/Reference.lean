import BusTables.Proofs.Declaration.Fields
import BusTables.Proofs.Declaration.Names
import BusTables.Proofs.Declaration.Outline
import Mathlib.Data.List.DropRight

/-!
# Names, lengths and references

A table is known by the word at the end of its header and has its length in brackets behind it
(`name?_outlined`, `length?_outlined`).  Other tables are referred to by the first word in the
value of a field that holds a pointer (`references_outlined`).  The length was computed apart from
the initializers, and it is their number (`count_outlined`).
-/

namespace BusTables

open Initializer

namespace Text

/-- The first word of a text. -/
def firstWord (text : String) : String :=
  String.ofList ((text.toList.dropWhile (!isWordCharacter ·)).takeWhile isWordCharacter)

/-- The number that stands in brackets. -/
def bracketed? : List Char → Option Nat
  | '[' :: rest => if rest.getLast? = some ']' then decimal? rest.dropLast else none
  | _ => none

/-- A word is read up to the first character that is of no word. -/
theorem takeWhile_word {word : String} (isWord : IsWord word) {behind : List Char}
    (ends : behind.takeWhile isWordCharacter = []) :
    (word.toList ++ behind).takeWhile isWordCharacter = word.toList := by
  rw [List.takeWhile_append_of_pos isWord.2, ends, List.append_nil]

theorem dropWhile_word {word : String} (isWord : IsWord word) {behind : List Char}
    (ends : behind.takeWhile isWordCharacter = []) :
    (word.toList ++ behind).dropWhile isWordCharacter = behind := by
  rw [List.dropWhile_append_of_pos isWord.2]
  cases behind with
  | nil => rfl
  | cons first rest =>
      cases other : isWordCharacter first with
      | true => simp [other] at ends
      | false => simp [other]

/-- The first word stands behind characters that are of no word. -/
theorem firstWord_of_split {text word : String} (isWord : IsWord word)
    {before behind : List Char} (split : text.toList = before ++ (word.toList ++ behind))
    (outside : before.all (!isWordCharacter ·) = true)
    (ends : behind.takeWhile isWordCharacter = []) : firstWord text = word := by
  obtain ⟨first, rest, characters⟩ := List.exists_cons_of_ne_nil
    (show word.toList ≠ [] by simpa using isWord.1)
  have inside : isWordCharacter first = true := isWord.2 first (characters ▸ List.mem_cons_self)
  have starts : (word.toList ++ behind).dropWhile (!isWordCharacter ·) = word.toList ++ behind := by
    rw [characters, List.cons_append, List.dropWhile_cons_of_neg (by simp [inside])]
  rw [firstWord, split, List.dropWhile_append_of_pos (List.all_eq_true.mp outside), starts,
    takeWhile_word isWord ends, String.ofList_toList]

theorem firstWord_word {word : String} (isWord : IsWord word) : firstWord word = word := by
  have split : word.toList = [] ++ (word.toList ++ []) := (List.append_nil word.toList).symm
  exact firstWord_of_split isWord split rfl rfl

theorem bracketed?_toString (number : Nat) : bracketed? s!"[{number}]".toList = some number := by
  have split : s!"[{number}]".toList = '[' :: ((toString number).toList ++ [']']) := by simp
  rw [split, bracketed?, if_pos List.getLast?_concat, List.dropLast_concat, decimal?_toString]

theorem count_listed {numbers : List Nat} (nonempty : numbers ≠ []) :
    (listed numbers).toList.count ',' + 1 = numbers.length := by
  induction numbers with
  | nil => exact absurd rfl nonempty
  | cons number later ih =>
      have digits : (toString number).toList.count ',' = 0 :=
        List.count_eq_zero.mpr (not_mem_toString number (by decide))
      cases later with
      | nil =>
          rw [listed, List.map_singleton, String.intercalate_singleton, digits]
          rfl
      | cons next rest =>
          have text : (listed (number :: next :: rest)).toList =
              (toString number).toList ++ ',' :: ' ' :: (listed (next :: rest)).toList := by
            simp [listed, String.intercalate_cons_cons]
          have others := ih (List.cons_ne_nil next rest)
          rw [text, List.count_append, digits, List.count_cons_self,
            List.count_cons_of_ne (by decide), List.length_cons, ← others]
          omega

end Text

namespace Initializer

/-- What stands behind the last blank of a header: a name, and perhaps a length in brackets. -/
def declarator (header : String) : List Char := header.toList.rtakeWhile (· != ' ')

/-- The name that an item declares. -/
def Item.name? (item : Item) : Option String :=
  item.header?.map fun header => String.ofList ((declarator header).takeWhile Text.isWordCharacter)

/-- The length that an item declares. -/
def Item.length? (item : Item) : Option Nat :=
  item.header?.bind fun header =>
    Text.bracketed? ((declarator header).dropWhile Text.isWordCharacter)

/-- The number of initializers on a line or in a block: between values on a line stand commas. -/
def Item.initializers : Item → Nat
  | .value text => text.toList.count ',' + 1
  | .comment _ => 0
  | .block _ _ => 1

/-- The number of initializers on lines and in blocks that follow each other. -/
def Item.countAll : List Item → Nat
  | [] => 0
  | item :: later => item.initializers + countAll later

/-- The number of initializers in the braces of an item. -/
def Item.count (item : Item) : Nat := countAll item.children

/-- The fields that hold pointers. -/
def pointerFields : List String := ["Data", "CoECmds", "slave"]

/-- The name that a value refers to, if it is the value of a field that holds a pointer. -/
def reference? (text : String) : Option String :=
  pointerFields.findSome? fun name => (fieldValue? name (.value text)).map Text.firstWord

/-- The names that the values in an item refer to. -/
def Item.references (item : Item) : List String := item.values.filterMap reference?

/-- The items of a file that declare a name. -/
def declarationsOf (file : List Item) (name : String) : List Item :=
  file.filter (·.name? == some name)

/-- Only labels of fields start with a full stop. -/
theorem reference?_of_unlabelled {text : String} (starts : text.toList.head? ≠ some '.') :
    reference? text = none := by
  refine List.findSome?_eq_none_iff.mpr fun name _ => ?_
  cases found : (fieldLabel name).isPrefixOf? text.toList with
  | none => rw [fieldValue?, found]; rfl
  | some rest =>
      refine absurd ?_ starts
      rw [← List.append_eq_of_isPrefixOf?_eq_some found]
      simp [fieldLabel]

theorem Item.references_block (header : Option String) (items : List Item) :
    (Item.block header items).references = items.flatMap Item.references := by
  rw [references, values]
  induction items with
  | nil => rfl
  | cons item later ih =>
      rw [allValues, List.filterMap_append, ih, List.flatMap_cons, references]

end Initializer

namespace Declaration

/-- What stands behind the name in a header. -/
def brackets : Declaration → String
  | .root _ => ""
  | declaration => s!"[{declaration.length}]"

theorem header_eq (declaration : Declaration) :
    declaration.header =
      declaration.type ++ " " ++ (declaration.name ++ declaration.brackets) := by
  rw [← String.append_assoc]
  cases declaration with
  | root => exact (String.append_empty).symm
  | bytes | commands | slaves => rfl

theorem toList_brackets (declaration : Declaration) :
    declaration.brackets.toList = [] ∨
      declaration.brackets.toList = '[' :: ((toString declaration.length).toList ++ [']']) := by
  cases declaration with
  | root => exact .inl rfl
  | bytes | commands | slaves => exact .inr (by simp [brackets])

theorem takeWhile_brackets (declaration : Declaration) :
    declaration.brackets.toList.takeWhile Text.isWordCharacter = [] := by
  rcases declaration.toList_brackets with none | some
  · rw [none]
    rfl
  · rw [some]
    rfl

theorem blank_not_mem_brackets (declaration : Declaration) :
    ' ' ∉ declaration.brackets.toList := by
  rcases declaration.toList_brackets with none | some
  · simp [none]
  · have digits : ' ' ∉ (toString declaration.length).toList :=
      Text.not_mem_toString declaration.length (by decide)
    simpa [some] using digits

theorem declarator_header (declaration : Declaration) :
    declarator declaration.header =
      declaration.name.toList ++ declaration.brackets.toList := by
  have inked : ∀ character ∈ (declaration.name.toList ++ declaration.brackets.toList).reverse,
      (character != ' ') = true := by
    intro character member
    rw [List.mem_reverse, List.mem_append] at member
    rw [bne_iff_ne]
    rcases member with name | brackets
    · exact Text.ne_of_class (declaration.isWord_name.2 character name) ' ' (by decide)
    · rintro rfl
      exact declaration.blank_not_mem_brackets brackets
  have split : declaration.header.toList = declaration.type.toList ++
      ' ' :: (declaration.name.toList ++ declaration.brackets.toList) := by
    simp [header_eq]
  -- Types hold blanks too, so that the last blank is the one that counts.
  rw [declarator, List.rtakeWhile, split, List.reverse_append, List.reverse_cons,
    List.append_assoc, List.takeWhile_append_of_pos inked]
  simp

theorem name?_outlined (declaration : Declaration) :
    declaration.outlined.name? = some declaration.name := by
  change some (String.ofList ((declarator declaration.header).takeWhile _)) = _
  rw [declarator_header, Text.takeWhile_word declaration.isWord_name declaration.takeWhile_brackets,
    String.ofList_toList]

/-- Only the record is no table. -/
def isRoot : Declaration → Bool
  | .root _ => true
  | _ => false

theorem name_of_isRoot {declaration : Declaration} (last : declaration.isRoot = true) :
    declaration.name = rootName := by
  cases declaration with
  | root => rfl
  | bytes | commands | slaves => cases last

theorem length?_outlined (declaration : Declaration) (table : declaration.isRoot = false) :
    declaration.outlined.length? = some declaration.length := by
  change Text.bracketed? ((declarator declaration.header).dropWhile _) = _
  rw [declarator_header, Text.dropWhile_word declaration.isWord_name declaration.takeWhile_brackets]
  cases declaration with
  | root => cases table
  | bytes | commands | slaves => exact Text.bracketed?_toString _

theorem countAll_rows {rows : List Payload} (full : ∀ row ∈ rows, row ≠ []) :
    Item.countAll (rows.map rowItem) = rows.flatten.length := by
  induction rows with
  | nil => rfl
  | cons row later ih =>
      have numbers : row.map UInt8.toNat ≠ [] := by simpa using full row List.mem_cons_self
      have rest := ih fun other member => full other (List.mem_cons_of_mem row member)
      rw [List.map_cons, Item.countAll, rest, rowItem_eq, Item.initializers,
        Text.count_listed numbers, List.length_map, List.flatten_cons, List.length_append]

theorem countAll_blocks {α : Type} (block : α → Item)
    (one : ∀ source, (block source).initializers = 1) (sources : List α) :
    Item.countAll (sources.map block) = sources.length := by
  induction sources with
  | nil => rfl
  | cons source later ih =>
      rw [List.map_cons, Item.countAll, ih, one, List.length_cons, Nat.add_comm]

/-- The number of initializers in braces is the length that was computed for them. -/
theorem count_outlined {declaration : Declaration} (filled : declaration.Filled)
    (table : declaration.isRoot = false) : declaration.outlined.count = declaration.length := by
  cases declaration with
  | bytes address rows => exact countAll_rows filled.2
  | commands address entries =>
      exact countAll_blocks (outlinedCommand address) (fun _ => rfl) entries
  | slaves entries => exact countAll_blocks slaveItem (fun _ => rfl) entries
  | root => cases table

/-- The table that the pointer to the bytes of a command leads to. -/
def dataTarget (address : UInt16) (entry : PlacedCommand) : String :=
  if entry.offset.isSome then bytesName address else nullPointer

/-- The names that a declaration refers to. -/
def references : Declaration → List String
  | .bytes _ _ => []
  | .commands address entries => entries.map (dataTarget address)
  | .slaves entries => entries.map fun slave => commandsName slave.address
  | .root count => [if count = 0 then nullPointer else slavesName]

theorem firstWord_dataPointer (address : UInt16) (entry : PlacedCommand) :
    Text.firstWord (dataPointer address entry.offset) = dataTarget address entry := by
  rw [dataTarget]
  cases entry.offset with
  | none => exact Text.firstWord_word (show Text.IsWord nullPointer by decide)
  | some offset =>
      have split : (dataPointer address (some offset)).toList =
          ['('] ++ ((bytesName address).toList ++ ' ' :: s!"+ {offset})".toList) := by
        simp [dataPointer]
      exact Text.firstWord_of_split (isWord_bytesName address) split (by decide) rfl

theorem findSome?_field {name : String} (named : ' ' ∉ name.toList) (value : String)
    {pointers : List String} (among : ∀ pointer ∈ pointers, ' ' ∉ pointer.toList) :
    (pointers.findSome? fun pointer =>
        (fieldValue? pointer (field name value)).map Text.firstWord) =
      if name ∈ pointers then some (Text.firstWord value) else none := by
  induction pointers with
  | nil => rfl
  | cons pointer later ih =>
      have rest := ih fun other member => among other (List.mem_cons_of_mem pointer member)
      rw [List.findSome?_cons]
      by_cases same : pointer = name
      · rw [same, fieldValue?_field, if_pos List.mem_cons_self]
        rfl
      · rw [fieldValue?_field_of_ne (among pointer List.mem_cons_self) named same,
          Option.map_none, rest]
        simp [Ne.symm same]

/-- A field refers to something if it is one of those that hold pointers. -/
theorem references_field {name : String} (named : ' ' ∉ name.toList) (value : String) :
    (field name value).references =
      if name ∈ pointerFields then [Text.firstWord value] else [] := by
  have found : reference? ("." ++ name ++ " = " ++ value) =
      if name ∈ pointerFields then some (Text.firstWord value) else none :=
    findSome?_field named value (show ∀ pointer ∈ pointerFields, ' ' ∉ pointer.toList by decide)
  rw [field, Item.references, Item.values, List.filterMap_cons, found, List.filterMap_nil]
  by_cases pointer : name ∈ pointerFields
  · rw [if_pos pointer, if_pos pointer]
  · rw [if_neg pointer, if_neg pointer]

theorem references_fields {pairs : List (String × String)} (named : Named pairs) :
    (fields pairs).flatMap Item.references =
      (pairs.filter fun pair => pair.1 ∈ pointerFields).map fun pair =>
        Text.firstWord pair.2 := by
  induction pairs with
  | nil => rfl
  | cons pair later ih =>
      have rest := ih fun other member => named other (List.mem_cons_of_mem pair.1 member)
      have first := references_field (named pair.1 List.mem_cons_self).2 pair.2
      rw [fields, List.map_cons, List.flatMap_cons, first, ← fields, rest]
      by_cases pointer : pair.1 ∈ pointerFields
      · simp [pointer]
      · simp [pointer]

theorem references_comments (lines : List String) :
    (lines.map Item.comment).flatMap Item.references = [] := by
  rw [List.flatMap_map]
  exact List.flatMap_eq_nil_iff.mpr fun _ _ => rfl

theorem references_outlinedCommand (address : UInt16) (entry : PlacedCommand) :
    (outlinedCommand address entry).references = [dataTarget address entry] := by
  rw [outlinedCommand, Item.references_block, List.flatMap_append, references_comments,
    references_fields (named_commandPairs address entry), ← firstWord_dataPointer]
  rfl

theorem references_slaveItem (slave : Slave) :
    (slaveItem slave).references = [commandsName slave.address] := by
  rw [slaveItem_eq, Item.references_block, references_fields (named_slavePairs slave)]
  exact congrArg ([·]) (Text.firstWord_word (isWord_commandsName slave.address))

theorem references_root (count : Nat) :
    (root count).items.flatMap Item.references =
      [if count = 0 then nullPointer else slavesName] := by
  rw [items_root, references_fields (named_rootPairs count)]
  refine congrArg ([·]) (Text.firstWord_word ?_)
  split <;> decide

theorem references_rowItem (row : Payload) : (rowItem row).references = [] := by
  have starts : (Text.listed (row.map UInt8.toNat)).toList.head? ≠ some '.' := by
    by_cases empty : row = []
    · simp [empty, Text.listed]
    · have numbers : row.map UInt8.toNat ≠ [] := by simpa using empty
      obtain ⟨first, starts, digit⟩ := Text.head?_listed numbers
      rw [starts]
      exact fun same => Text.ne_of_class digit '.' (by decide) (Option.some.inj same)
  rw [rowItem_eq, Item.references, Item.values, List.filterMap_cons,
    reference?_of_unlabelled starts]
  rfl

theorem field?_root (count : Nat) {name : String} (asked : ' ' ∉ name.toList) :
    (root count).outlined.field? name = (rootPairs count).lookup name :=
  findSome?_fields (named_rootPairs count) asked

/-- What is read of a declaration refers to what the declaration refers to. -/
theorem references_outlined (declaration : Declaration) :
    declaration.outlined.references = declaration.references := by
  rw [outlined, Item.references_block]
  cases declaration with
  | bytes address rows =>
      change (rows.map rowItem).flatMap _ = []
      rw [List.flatMap_map, List.flatMap_eq_nil_iff]
      exact fun row _ => references_rowItem row
  | commands address entries =>
      change (entries.map (outlinedCommand address)).flatMap _ = _
      rw [List.flatMap_map]
      simp only [references_outlinedCommand]
      exact List.map_eq_flatMap.symm
  | slaves entries =>
      change (entries.map slaveItem).flatMap _ = _
      rw [List.flatMap_map]
      simp only [references_slaveItem]
      exact List.map_eq_flatMap.symm
  | root count => exact references_root count

end Declaration

end BusTables
