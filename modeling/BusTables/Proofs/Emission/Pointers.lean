import BusTables.Proofs.Declaration.Fields
import BusTables.Proofs.Emission.Text

/-!
# Pointers into the bytes

The table of bytes and the pointers into it come from two passes over the commands of a slave.
Both agree on the commands that carry nothing and on the running offset, so that each pointer
leads to the bytes of its command (`pointsAt_of_fields`), and the text says nothing else
(`data_pointers_exact`).
-/

namespace BusTables

open Initializer Command

/-- A block says where among the numbers of a table the bytes of its command are. -/
structure PointsAt (address : UInt16) (numbers : List Nat) (data : Payload) (offset : Nat)
    (block : Item) : Prop where
  size : block.field? "DataSize" = some (toString data.length)
  null : block.field? "Data" = some "NULL" ↔ data = []
  pointer : data ≠ [] → block.field? "Data" = some s!"(s{address.toNat}_coeData + {offset})"
  inside : data ≠ [] → offset + data.length ≤ numbers.length
  bytes : data ≠ [] → (numbers.drop offset).take data.length = data.map UInt8.toNat

/-- The places of commands come one after the other and leave no gap. -/
structure Tiled (commands : List Command) (offset : Nat → Nat) (size : Nat) : Prop where
  ascending : ∀ first later command other, first < later →
    commands[first]? = some command → commands[later]? = some other →
    command.data ≠ [] → other.data ≠ [] → offset first + command.data.length ≤ offset later
  covering : ∀ position < size, ∃ index command,
    commands[index]? = some command ∧ command.data ≠ [] ∧
      offset index ≤ position ∧ position < offset index + command.data.length

namespace Slave

/-- The bytes that the commands carry, as numbers. -/
def numbers (slave : Slave) : List Nat :=
  slave.commands.flatMap fun command => command.data.map UInt8.toNat

/-- What is declared for a slave, as items. -/
def tables (slave : Slave) : List Item :=
  if slave.isIdle then [] else slave.declarations.map Declaration.item

/-- The table of bytes and the table of commands agree with the commands of a slave. -/
structure PointersExact (slave : Slave) (bytes commands : Option Item) (offset : Nat → Nat) :
    Prop where
  emitted : bytes.isSome ↔ ∃ command ∈ slave.commands, command.data ≠ []
  declared : ∀ table ∈ bytes,
    table.header? = some s!"static uint8 s{slave.address.toNat}_coeData[{slave.numbers.length}]"
  listed : ∀ table ∈ bytes, table.numbers? = some slave.numbers
  named : ∀ table ∈ commands, table.header? =
    some s!"static ec_enicoecmdt s{slave.address.toNat}_coeCmds[{slave.commands.length}]"
  counted : ∀ table ∈ commands, table.children.length = slave.commands.length
  pointed : ∀ (index : Nat) (command : Command), slave.commands[index]? = some command →
    ∃ table ∈ commands, ∃ block, table.children[index]? = some block ∧
      PointsAt slave.address slave.numbers command.data (offset index) block
  tiled : Tiled slave.commands offset slave.numbers.length

theorem numbers_eq (slave : Slave) :
    slave.numbers = (slave.commands.flatMap (·.data)).map UInt8.toNat := by
  rw [numbers, List.map_flatMap]

@[simp] theorem length_numbers (slave : Slave) :
    slave.numbers.length = totalSize slave.commands := by
  rw [numbers_eq, List.length_map, totalSize]

theorem flatten_rows (slave : Slave) : slave.rows.flatten = slave.commands.flatMap (·.data) := by
  rw [rows, List.flatten_filter_not_isEmpty, List.flatMap]

theorem isSome_bytesDeclaration? (slave : Slave) :
    slave.bytesDeclaration?.isSome ↔ ∃ command ∈ slave.commands, command.data ≠ [] := by
  have empty := totalSize_eq_zero_iff slave.commands
  unfold bytesDeclaration?
  split
  · rename_i none
    have carried := empty.mp none
    constructor
    · intro some
      cases some
    · rintro ⟨command, member, nonempty⟩
      exact absurd (carried command member) nonempty
  · rename_i some
    rw [empty] at some
    simpa using some

theorem tables_eq (slave : Slave) :
    slave.tables =
      (slave.bytesDeclaration?.map Declaration.item).toList ++
        (if slave.isIdle then none else some slave.commandsDeclaration.item).toList := by
  unfold tables
  split
  · rename_i idle
    have none : slave.commands = [] := by simpa [isIdle] using idle
    simp [bytesDeclaration?, none]
  · rw [declarations, List.map_append]
    cases slave.bytesDeclaration? <;> rfl

theorem tiled (commands : List Command) :
    Tiled commands (sizeBefore commands) (totalSize commands) where
  ascending first later command other order given _ _ _ := end_le_offset given order
  covering position inside := by
    obtain ⟨index, command, given, lower, upper⟩ := exists_place inside
    refine ⟨index, command, given, ?_, lower, upper⟩
    rintro none
    rw [none, List.length_nil, Nat.add_zero] at upper
    exact absurd lower (Nat.not_le.mpr upper)

theorem dataPointer_some (address : UInt16) (offset : Nat) :
    Declaration.dataPointer address (some offset) =
      s!"(s{address.toNat}_coeData + {offset})" := by
  rw [← String.toList_inj]
  simp [Declaration.dataPointer, bytesName]

theorem dataPointer_some_ne_null (address : UInt16) (offset : Nat) :
    Declaration.dataPointer address (some offset) ≠ nullPointer := by
  intro same
  have starts := congrArg (·.toList.head?) same
  simp [Declaration.dataPointer, nullPointer] at starts

/-- The fields of a command point at the bytes of the command. -/
theorem pointsAt_of_fields {slave : Slave} {index : Nat} {command : Command}
    (given : slave.commands[index]? = some command) {offset : Option Nat}
    (placed : offset =
      if command.data.isEmpty then none else some (sizeBefore slave.commands index)) {block : Item}
    (fields : ∀ name : String, ' ' ∉ name.toList →
      block.field? name =
        (Declaration.commandPairs slave.address ⟨command, offset⟩).lookup name) :
    PointsAt slave.address slave.numbers command.data (sizeBefore slave.commands index) block := by
  have pointer := fields "Data" (by decide)
  change _ = some (Declaration.dataPointer slave.address offset) at pointer
  constructor
  · exact fields "DataSize" (by decide)
  · rw [pointer]
    by_cases empty : command.data = []
    · have nowhere : offset = none := by simp [placed, empty]
      rw [nowhere]
      exact ⟨fun _ => empty, fun _ => rfl⟩
    · have somewhere : offset = some (sizeBefore slave.commands index) := by
        simp [placed, empty]
      rw [somewhere]
      constructor
      · intro null
        exact absurd (Option.some.inj null) (dataPointer_some_ne_null _ _)
      · intro none
        exact absurd none empty
  · intro nonempty
    have somewhere : offset = some (sizeBefore slave.commands index) := by
      simp [placed, nonempty]
    rw [pointer, somewhere, dataPointer_some]
  · intro _
    rw [length_numbers]
    exact end_le_total given
  · intro _
    rw [numbers_eq, ← List.map_drop, ← List.map_take, bytes_at_offset given]

theorem pointsAt_block (slave : Slave) {index : Nat} {command : Command}
    (given : slave.commands[index]? = some command) :
    ∃ block, slave.commandsDeclaration.item.children[index]? = some block ∧
      PointsAt slave.address slave.numbers command.data (sizeBefore slave.commands index)
        block := by
  let offset := if command.data.isEmpty then none else some (sizeBefore slave.commands index)
  have placed : (place slave.commands)[index]? = some ⟨command, offset⟩ := by
    rw [getElem?_place, given]
    rfl
  refine ⟨Declaration.commandItem slave.address ⟨command, offset⟩, ?_, ?_⟩
  · change ((place slave.commands).map (Declaration.commandItem slave.address))[index]? = _
    rw [List.getElem?_map, placed]
    rfl
  · exact pointsAt_of_fields given rfl fun name asked =>
      Declaration.field?_commandItem slave.address ⟨command, offset⟩ asked

theorem eq_commands_of_mem {slave : Slave} {table : Item}
    (given : table ∈ if slave.isIdle then none else some slave.commandsDeclaration.item) :
    table = slave.commandsDeclaration.item := by
  split at given
  · cases given
  · exact (Option.some.inj given).symm

/-- The tables of a slave agree with its commands. -/
theorem pointersExact (slave : Slave) :
    slave.PointersExact (slave.bytesDeclaration?.map Declaration.item)
      (if slave.isIdle then none else some slave.commandsDeclaration.item)
      (sizeBefore slave.commands) where
  emitted := by
    rw [Option.isSome_map]
    exact isSome_bytesDeclaration? slave
  declared := by
    intro table given
    obtain ⟨declaration, declared, rfl⟩ := Option.map_eq_some_iff.mp given
    obtain ⟨rfl, -⟩ := bytesDeclaration?_eq_some declared
    change some (Declaration.bytes slave.address slave.rows).header = _
    rw [Declaration.header_bytes, flatten_rows, length_numbers, totalSize]
  listed := by
    intro table given
    obtain ⟨declaration, declared, rfl⟩ := Option.map_eq_some_iff.mp given
    obtain ⟨rfl, -⟩ := bytesDeclaration?_eq_some declared
    rw [Declaration.numbers?_bytes slave.address slave.full_rows, flatten_rows, numbers_eq]
  named := by
    intro table given
    rw [eq_commands_of_mem given]
    change some slave.commandsDeclaration.header = _
    rw [commandsDeclaration, Declaration.header_commands, length_place]
  counted := by
    intro table given
    rw [eq_commands_of_mem given]
    change ((place slave.commands).map _).length = _
    rw [List.length_map, length_place]
  pointed := by
    intro index command given
    have busy : ¬slave.isIdle := by
      intro idle
      rw [List.isEmpty_iff.mp idle] at given
      cases given
    rw [if_neg busy]
    obtain ⟨block, found, exact⟩ := slave.pointsAt_block given
    exact ⟨_, rfl, block, found, exact⟩
  tiled := by
    rw [length_numbers]
    exact tiled slave.commands

end Slave

namespace Configuration

/-- Each slave has its section, and idle slaves have empty ones. -/
theorem items_eq (configuration : Configuration) :
    configuration.items =
      configuration.sorted.flatMap Slave.tables ++
        configuration.shared.map Declaration.item := by
  have sections (slaves : List Slave) :
      ((slaves.filter (!·.isIdle)).flatMap Slave.declarations).map Declaration.item =
        slaves.flatMap Slave.tables := by
    induction slaves with
    | nil => rfl
    | cons slave later ih =>
        rw [List.flatMap_cons, ← ih, List.filter_cons, Slave.tables]
        cases slave.isIdle <;> simp
  rw [items, declarations_eq, List.map_append, ← sections]
  rfl

end Configuration

/--
The text consists of a section for each slave of the configuration in turn and of what follows
them, and the tables in each section agree with the commands of its slave.
-/
theorem data_pointers_exact (header : String) (configuration : Configuration) :
    configuration.sorted.Perm configuration.slaves ∧
      Emission.text header configuration =
        Emission.inclusionLine header ++
          layoutFile Emission.columns
            (configuration.sorted.flatMap Slave.tables ++
              configuration.shared.map Declaration.item) ∧
      ∀ slave : Slave, ∃ (bytes commands : Option Item) (offset : Nat → Nat),
        slave.tables = bytes.toList ++ commands.toList ∧
          slave.PointersExact bytes commands offset := by
  refine ⟨List.mergeSort_perm _ _, ?_, ?_⟩
  · rw [Emission.text_eq, Configuration.items_eq]
  · intro slave
    exact ⟨_, _, _, slave.tables_eq, slave.pointersExact⟩

end BusTables
