import BusTables.Proofs.Emission.Text
import BusTables.Proofs.Initializer.Grammar

/-!
# The text is well formed

Without its comments, the text is a line for the preprocessor and declarations in the grammar of
initializers (`text_wellFormed`).  Every declaration holds something, and a command has fields
behind its comment, so that no list is empty and none ends in a separator.
-/

namespace BusTables

open Initializer

/-- The text of a declaration; a blank line follows it. -/
def declaredText (declared : String × List Char) : List Char :=
  declared.1.toList ++ [' ', '=', ' ', '\x7b'] ++ declared.2 ++ ['\x7d', ';', '\n', '\n']

/-- What a list is assigned to: not empty, and with no mark that separates or assigns. -/
def IsHeader (text : String) : Prop :=
  text ≠ "" ∧ ∀ character ∈ text.toList, Text.isPlain character = true ∧ character ≠ '='

/-- A line for the preprocessor and declarations, the last one of the given header. -/
structure WellFormed (directive last : String) (text : List Char)
    (declared : List (String × List Char)) : Prop where
  whole : text = directive.toList ++ ['\n', '\n'] ++ declared.flatMap declaredText
  oneLine : '\n' ∉ directive.toList
  headers : ∀ declaration ∈ declared, IsHeader declaration.1
  lists : ∀ declaration ∈ declared, Listed declaration.2
  balanced : depthAfter 0 (declared.flatMap declaredText) = some 0
  ends : declared.getLast?.map Prod.fst = some last

namespace Declaration

/-- The commands in a declaration are regular. -/
def Regular : Declaration → Prop
  | .commands _ entries => ∀ entry ∈ entries, entry.command.Regular
  | _ => True

theorem plain_transitionMask {command : Command} (regular : command.Regular) :
    Text.Plain (transitionMask command.transitions) := by
  intro character member
  rcases mem_transitionMask member with ⟨name, given, inside⟩ | plain
  · exact Text.isPlain_of_isWordCharacter ((regular.2 name given).2 character inside)
  · exact plain

theorem element_field {name value : String} (named : Text.Plain name)
    (plain : Text.Plain value) : (field name value).Element := by
  have leads := leads_field name value
  have text := plain_field named plain
  obtain ⟨first, rest, starts, inked, -⟩ := leads.first
  refine .value leads ?_
  rw [Text.Plain, starts] at text
  rw [starts]
  exact .value inked text

theorem elements_of_forall {items : List Item} (nonempty : items ≠ [])
    (elements : ∀ item ∈ items, item.Element) : Item.Elements items := by
  induction items with
  | nil => exact absurd rfl nonempty
  | cons item later ih =>
      have first := elements item List.mem_cons_self
      cases later with
      | nil => exact .last first
      | cons next rest =>
          exact .cons first (ih (List.cons_ne_nil next rest) fun other member =>
            elements other (List.mem_cons_of_mem item member))

theorem element_rowItem {row : Payload} (nonempty : row ≠ []) : (rowItem row).Element := by
  rw [rowItem_eq]
  exact .value (leads_row nonempty) (listed_numbers (by simpa using nonempty))

theorem elements_fields {pairs : List (String × String)} (nonempty : pairs ≠ [])
    (named : Named pairs) (plain : ∀ pair ∈ pairs, Text.Plain pair.2) :
    Item.Elements (fields pairs) := by
  apply elements_of_forall (by simpa [fields] using nonempty)
  intro item member
  obtain ⟨pair, given, rfl⟩ := List.mem_map.mp member
  exact element_field (named pair.1 (List.mem_map_of_mem given)).1 (plain pair given)

theorem element_commandItem (address : UInt16) {entry : PlacedCommand}
    (regular : entry.command.Regular) : (commandItem address entry).Element := by
  have plain : ∀ pair ∈ commandPairs address entry, Text.Plain pair.2 := by
    intro pair member
    rcases plain_or_transitions member with mask | plain
    · rw [mask]
      exact plain_transitionMask regular
    · exact plain
  have fields := elements_fields (List.cons_ne_nil _ _) (named_commandPairs address entry) plain
  rw [commandItem_eq]
  refine .block ?_
  unfold commentItems
  split
  · exact fields
  · exact .comment fields

theorem element_slaveItem (slave : Slave) : (slaveItem slave).Element := by
  rw [slaveItem_eq]
  exact .block (elements_fields (List.cons_ne_nil _ _) (named_slavePairs slave) fun _ =>
    plain_slavePairs)

/-- The initializers of a declaration are a list that is not empty. -/
theorem elements_items {declaration : Declaration} (filled : declaration.Filled)
    (regular : declaration.Regular) : Item.Elements declaration.items := by
  cases declaration with
  | bytes address rows =>
      apply elements_of_forall (by simpa [items] using filled.1)
      intro item member
      obtain ⟨row, given, rfl⟩ := List.mem_map.mp member
      exact element_rowItem (filled.2 row given)
  | commands address entries =>
      apply elements_of_forall (by simpa [items, Filled] using filled)
      intro item member
      obtain ⟨entry, given, rfl⟩ := List.mem_map.mp member
      exact element_commandItem address (regular entry given)
  | slaves entries =>
      apply elements_of_forall (by simpa [items, Filled] using filled)
      intro item member
      obtain ⟨slave, -, rfl⟩ := List.mem_map.mp member
      exact element_slaveItem slave
  | root count =>
      rw [items_root]
      exact elements_fields (List.cons_ne_nil _ _) (named_rootPairs count) fun _ => plain_rootPairs

theorem isHeader_header (declaration : Declaration) : IsHeader declaration.header := by
  obtain ⟨first, rest, starts, -⟩ := declaration.leads_header.first
  have digits (number : Nat) : '=' ∉ Nat.toDigits 10 number := by
    rw [← Text.toList_toString]
    intro member
    exact absurd (Text.isDigit_of_mem_toString member) (by decide)
  have unassigned : '=' ∉ declaration.header.toList := by
    cases declaration <;>
      simp [header, type, name, length, bytesName, commandsName, slavesName, rootName, digits]
  constructor
  · intro empty
    rw [empty] at starts
    cases starts
  · intro character member
    refine ⟨declaration.plain_header character member, ?_⟩
    rintro rfl
    exact unassigned member

/-- The list between the braces of a declaration, without comments. -/
def inner (declaration : Declaration) : List Char :=
  '\n' :: inkedLines (Item.allLines Emission.columns 1 declaration.items)

theorem listed_inner {declaration : Declaration} (filled : declaration.Filled)
    (regular : declaration.Regular) : Listed declaration.inner :=
  Listed.blank_append lineEnd_blank
    (listed_elements Emission.columns 0 (elements_items filled regular))

theorem inkedLines_item (declaration : Declaration) (isLast : Bool) :
    inkedLines (declaration.item.lines Emission.columns 0 isLast) =
      declaredText (declaration.header, declaration.inner) := by
  obtain ⟨first, rest, starts, inked, mark, -⟩ := declaration.leads_header.first
  have opening : isCommentLine (lineAt Emission.columns 0 (openingText declaration.header)) =
      false := by
    have whole : openingText declaration.header = first :: (rest ++ [' ', '=', ' ', '\x7b']) := by
      simp [openingText, starts]
    rw [whole]
    exact isCommentLine_lineAt Emission.columns 0 _ inked mark
  have closing : inkedLines (ended 0 isLast (lineAt Emission.columns 0 ['\x7d'])) =
      ['\x7d', ';', '\n', '\n'] :=
    rfl
  rw [item, Item.lines, inkedLines_cons opening, inkedLines_append, closing]
  simp [declaredText, inner, lineAt, openingText]

theorem inkedLines_items (declarations : List Declaration) :
    inkedLines (Item.allLines Emission.columns 0 (declarations.map item)) =
      (declarations.map fun declaration =>
        (declaration.header, declaration.inner)).flatMap declaredText := by
  induction declarations with
  | nil => rfl
  | cons declaration later ih =>
      rw [List.map_cons, Item.allLines, inkedLines_append, inkedLines_item, ih]
      rfl

end Declaration

theorem depthAfter_declaredText {declared : String × List Char} (named : IsHeader declared.1)
    (listed : Listed declared.2) : depthAfter 0 (declaredText declared) = some 0 := by
  have header := depthAfter_plain 0 fun character member => (named.2 character member).1
  rw [declaredText, depthAfter_append, depthAfter_append, depthAfter_append, header,
    Option.bind_some]
  change ((some 1).bind fun next => depthAfter next declared.2).bind _ = _
  rw [Option.bind_some, listed.depthAfter 1]
  rfl

theorem depthAfter_flatMap {declared : List (String × List Char)}
    (named : ∀ declaration ∈ declared, IsHeader declaration.1)
    (listed : ∀ declaration ∈ declared, Listed declaration.2) :
    depthAfter 0 (declared.flatMap declaredText) = some 0 := by
  induction declared with
  | nil => rfl
  | cons declaration later ih =>
      have first := depthAfter_declaredText (named declaration List.mem_cons_self)
        (listed declaration List.mem_cons_self)
      have rest := ih (fun other member => named other (List.mem_cons_of_mem declaration member))
        fun other member => listed other (List.mem_cons_of_mem declaration member)
      rw [List.flatMap_cons, depthAfter_append, first, Option.bind_some, rest]

namespace Configuration

theorem regular_of_mem_declarations {configuration : Configuration}
    (regular : configuration.Regular) {declaration : Declaration}
    (member : declaration ∈ configuration.declarations) : declaration.Regular := by
  cases declaration with
  | commands address entries =>
      intro entry placed
      obtain ⟨slave, given, among⟩ := command_of_mem_declarations member placed
      exact regular slave given entry.command among
  | bytes | slaves | root => trivial

theorem getLast?_declarations (configuration : Configuration) :
    configuration.declarations.getLast? = some (.root configuration.busy.length) := by
  rw [declarations_eq, shared, ← List.append_assoc, List.getLast?_concat]

end Configuration

/-- What is declared, each with the list that it is assigned. -/
def Configuration.declared (configuration : Configuration) : List (String × List Char) :=
  configuration.declarations.map fun declaration => (declaration.header, declaration.inner)

/-- The line that includes a header is the first line of the text, and declarations follow. -/
theorem withoutComments_text {header : String} (oneLine : '\n' ∉ header.toList)
    {configuration : Configuration} (unbroken : configuration.Unbroken) :
    withoutComments (Emission.text header configuration).toList =
      ("#include \"" ++ header ++ "\"").toList ++ ['\n', '\n'] ++
        configuration.declared.flatMap declaredText := by
  have legible := Configuration.legible_items unbroken
  have whole : ∀ line ∈ ("#include \"" ++ header ++ "\"").toList :: [] ::
      Item.allLines Emission.columns 0 configuration.items, '\n' ∉ line := by
    intro line member
    rcases List.mem_cons.mp member with rfl | member
    · simpa using oneLine
    · rcases List.mem_cons.mp member with rfl | inside
      · exact List.not_mem_nil
      · exact whole_allLines Emission.columns 0 _ legible line inside
  have kept : isCommentLine ("#include \"" ++ header ++ "\"").toList = false := by
    simp +decide [isCommentLine, List.isPrefixOf]
  rw [Emission.toList_text, withoutComments_unlines whole]
  change inkedLines _ = _
  rw [inkedLines_cons kept, inkedLines_cons rfl, Configuration.items,
    Declaration.inkedLines_items]
  simp [Configuration.declared]

/-- The text without its comments is a line for the preprocessor and declarations. -/
theorem text_wellFormed {header : String} (oneLine : '\n' ∉ header.toList)
    {configuration : Configuration} (regular : configuration.Regular) :
    ∃ declared, WellFormed ("#include \"" ++ header ++ "\"") "ec_enit ec_eni"
      (withoutComments (Emission.text header configuration).toList) declared := by
  have headers : ∀ declaration ∈ configuration.declared, IsHeader declaration.1 := by
    intro pair member
    obtain ⟨declaration, -, rfl⟩ := List.mem_map.mp member
    exact declaration.isHeader_header
  have lists : ∀ declaration ∈ configuration.declared, Listed declaration.2 := by
    intro pair member
    obtain ⟨declaration, given, rfl⟩ := List.mem_map.mp member
    exact Declaration.listed_inner (Configuration.filled_of_mem_declarations given)
      (Configuration.regular_of_mem_declarations regular given)
  refine ⟨configuration.declared, ?_⟩
  constructor
  · exact withoutComments_text oneLine regular.unbroken
  · simpa using oneLine
  · exact headers
  · exact lists
  · exact depthAfter_flatMap headers lists
  · rw [Configuration.declared, List.getLast?_map, Configuration.getLast?_declarations]
    rfl

/-- A comment may hold what ends declarations. -/
theorem text_wellFormed_comment :
    ∃ declared, WellFormed ("#include \"" ++ "ecat.h" ++ "\"") "ec_enit ec_eni"
      (withoutComments (Emission.text "ecat.h"
        ⟨[⟨1, 2, 3, 4, [⟨"a\x7d;\n,", ["PS"], false, 1, 0x1c12, 0, 0, [5]⟩]⟩]⟩).toList)
      declared :=
  text_wellFormed (by decide) (by decide)

end BusTables
