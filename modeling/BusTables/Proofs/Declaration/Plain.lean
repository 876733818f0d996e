import BusTables.Declaration
import BusTables.Proofs.Text.Decimal

/-!
# The texts of declarations

The texts in declarations are numbers, names of tables and fixed words, and these are plain.  Only
the names of transitions come from outside (`plain_or_transitions`).  Fields are told by their
names, which hold no blank.
-/

namespace BusTables

namespace Declaration

/-- The types of declarations. -/
def types : List String :=
  ["static uint8", "static ec_enicoecmdt", "static ec_enislavet", "ec_enit"]

theorem type_mem (declaration : Declaration) : declaration.type ∈ types := by
  cases declaration <;> simp [type, types]

theorem plain_type (declaration : Declaration) : Text.Plain declaration.type := by
  have plain : ∀ text ∈ types, Text.Plain text := by decide
  exact plain _ declaration.type_mem

theorem plain_bytesName (address : UInt16) : Text.Plain (bytesName address) :=
  Text.plain_numbered (by decide) _ (by decide)

theorem plain_commandsName (address : UInt16) : Text.Plain (commandsName address) :=
  Text.plain_numbered (by decide) _ (by decide)

theorem plain_slavesName : Text.Plain slavesName := by
  decide

theorem plain_nullPointer : Text.Plain nullPointer := by
  decide

theorem plain_dataPointer (address : UInt16) (offset : Option Nat) :
    Text.Plain (dataPointer address offset) := by
  cases offset with
  | none => exact plain_nullPointer
  | some offset =>
      exact Text.Plain.append (Text.Plain.append (by decide) (plain_bytesName address))
        (Text.plain_numbered (by decide) offset (by decide))

theorem plain_name (declaration : Declaration) : Text.Plain declaration.name := by
  cases declaration with
  | bytes address => exact plain_bytesName address
  | commands address => exact plain_commandsName address
  | slaves => exact plain_slavesName
  | root => exact (show Text.Plain rootName by decide)

theorem plain_header (declaration : Declaration) : Text.Plain declaration.header := by
  have start : Text.Plain (declaration.type ++ " " ++ declaration.name) :=
    (declaration.plain_type.append (by decide)).append declaration.plain_name
  cases declaration with
  | bytes | commands | slaves =>
      exact start.append (Text.plain_numbered (by decide) _ (by decide))
  | root => exact start

theorem mem_transitionMask {transitions : List String} {character : Char}
    (member : character ∈ (transitionMask transitions).toList) :
    (∃ name ∈ transitions, character ∈ name.toList) ∨ Text.isPlain character = true := by
  have among {text : String} (marked : text ∈ transitions.map ("ECT_ESMTRANS_" ++ ·))
      (inside : character ∈ text.toList) :
      (∃ name ∈ transitions, character ∈ name.toList) ∨ Text.isPlain character = true := by
    obtain ⟨name, given, rfl⟩ := List.mem_map.mp marked
    rw [String.toList_append, List.mem_append] at inside
    rcases inside with fixed | named
    · exact .inr ((show Text.Plain "ECT_ESMTRANS_" by decide) character fixed)
    · exact .inl ⟨name, given, named⟩
  simp only [transitionMask] at member
  split at member
  · simp only [String.toList_append, List.mem_append] at member
    rcases member with (opening | names) | closing
    · exact .inr ((show Text.Plain "(" by decide) character opening)
    · rcases Text.mem_intercalate names with ⟨text, marked, inside⟩ | between
      · exact among marked inside
      · exact .inr ((show Text.Plain " | " by decide) character between)
    · exact .inr ((show Text.Plain ")" by decide) character closing)
  · rw [String.toList_join, List.mem_flatMap] at member
    obtain ⟨text, marked, inside⟩ := member
    exact among marked inside

theorem rowItem_eq (row : Payload) :
    rowItem row = .value (Text.listed (row.map UInt8.toNat)) := by
  simp [rowItem, Text.listed, Function.comp_def]

/-- Fields by their names. -/
def fields (pairs : List (String × String)) : List Initializer.Item :=
  pairs.map fun pair => field pair.1 pair.2

/-- The fields of a command behind its comment. -/
def commandPairs (address : UInt16) (entry : PlacedCommand) : List (String × String) :=
  [("Transition", transitionMask entry.command.transitions),
    ("CA", if entry.command.completeAccess then "TRUE" else "FALSE"),
    ("Ccs", toString entry.command.specifier.toNat),
    ("Index", Text.hexWord 4 entry.command.index.toNat),
    ("SubIdx", toString entry.command.subIndex.toNat),
    ("Timeout", toString entry.command.timeout.toInt),
    ("DataSize", toString entry.command.data.length),
    ("Data", dataPointer address entry.offset)]

/-- The fields of a slave. -/
def slavePairs (slave : Slave) : List (String × String) :=
  [("Slave", toString slave.address.toNat),
    ("VendorId", toString slave.vendor.toNat),
    ("ProductCode", toString slave.product.toNat),
    ("RevisionNo", toString slave.revision.toNat),
    ("CoECmds", commandsName slave.address),
    ("CoECmdCount", toString slave.commands.length)]

/-- The fields of the record. -/
def rootPairs (count : Nat) : List (String × String) :=
  [("slave", if count = 0 then nullPointer else slavesName), ("slavecount", toString count)]

theorem commandItem_eq (address : UInt16) (entry : PlacedCommand) :
    commandItem address entry =
      .block none (commentItems entry.command.comment ++ fields (commandPairs address entry)) :=
  rfl

theorem slaveItem_eq (slave : Slave) : slaveItem slave = .block none (fields (slavePairs slave)) :=
  rfl

theorem items_root (count : Nat) : (root count).items = fields (rootPairs count) :=
  rfl

/-- The names of fields are plain and hold no blank. -/
def Named (pairs : List (String × String)) : Prop :=
  ∀ name ∈ pairs.map Prod.fst, Text.Plain name ∧ ' ' ∉ name.toList

theorem named_commandPairs (address : UInt16) (entry : PlacedCommand) :
    Named (commandPairs address entry) := by
  change ∀ name ∈ ["Transition", "CA", "Ccs", "Index", "SubIdx", "Timeout", "DataSize", "Data"], _
  decide

theorem named_slavePairs (slave : Slave) : Named (slavePairs slave) := by
  change ∀ name ∈ ["Slave", "VendorId", "ProductCode", "RevisionNo", "CoECmds", "CoECmdCount"], _
  decide

theorem named_rootPairs (count : Nat) : Named (rootPairs count) := by
  change ∀ name ∈ ["slave", "slavecount"], _
  decide

/-- All values of a command are plain but the mask of its transitions. -/
theorem plain_or_transitions {address : UInt16} {entry : PlacedCommand} {pair : String × String}
    (member : pair ∈ commandPairs address entry) :
    pair.2 = transitionMask entry.command.transitions ∨ Text.Plain pair.2 := by
  simp only [commandPairs, List.mem_cons, List.not_mem_nil, or_false] at member
  rcases member with rfl | rfl | rfl | rfl | rfl | rfl | rfl | rfl
  · exact .inl rfl
  · right
    dsimp only
    split <;> decide
  · exact .inr (Text.plain_nat _)
  · exact .inr (Text.plain_hexWord _ _)
  · exact .inr (Text.plain_nat _)
  · exact .inr (Text.plain_int _)
  · exact .inr (Text.plain_nat _)
  · exact .inr (plain_dataPointer address entry.offset)

theorem plain_slavePairs {slave : Slave} {pair : String × String}
    (member : pair ∈ slavePairs slave) : Text.Plain pair.2 := by
  simp only [slavePairs, List.mem_cons, List.not_mem_nil, or_false] at member
  rcases member with rfl | rfl | rfl | rfl | rfl | rfl
  · exact Text.plain_nat _
  · exact Text.plain_nat _
  · exact Text.plain_nat _
  · exact Text.plain_nat _
  · exact plain_commandsName slave.address
  · exact Text.plain_nat _

theorem plain_rootPairs {count : Nat} {pair : String × String}
    (member : pair ∈ rootPairs count) : Text.Plain pair.2 := by
  simp only [rootPairs, List.mem_cons, List.not_mem_nil, or_false] at member
  rcases member with rfl | rfl
  · dsimp only
    split
    · exact plain_nullPointer
    · exact plain_slavesName
  · exact Text.plain_nat count

end Declaration

end BusTables
