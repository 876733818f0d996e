import BusTables.Proofs.Emission.Text

/-!
# Declarations without comments

A comment decides nothing but the lines that it takes up itself: with all comments empty, slaves
are sorted, counted and declared as before, and commands have the same places
(`Configuration.declarations_uncommented`).
-/

namespace BusTables

/-- A command with an empty comment. -/
def Command.uncommented (command : Command) : Command := { command with comment := "" }

/-- A command with an empty comment, in the same place. -/
def PlacedCommand.uncommented (entry : PlacedCommand) : PlacedCommand :=
  { entry with command := entry.command.uncommented }

/-- A slave without comments. -/
def Slave.uncommented (slave : Slave) : Slave :=
  { slave with commands := slave.commands.map Command.uncommented }

/-- A configuration without comments. -/
def Configuration.uncommented (configuration : Configuration) : Configuration :=
  ⟨configuration.slaves.map Slave.uncommented⟩

/-- A declaration without comments. -/
def Declaration.uncommented : Declaration → Declaration
  | .commands address entries => .commands address (entries.map PlacedCommand.uncommented)
  | .slaves entries => .slaves (entries.map Slave.uncommented)
  | .bytes address rows => .bytes address rows
  | .root count => .root count

theorem placeFrom_uncommented (offset : Nat) (commands : List Command) :
    placeFrom offset (commands.map Command.uncommented) =
      (placeFrom offset commands).map PlacedCommand.uncommented := by
  induction commands generalizing offset with
  | nil => rfl
  | cons command later ih =>
      rw [List.map_cons, placeFrom, placeFrom, ih, ih]
      change (if command.data.isEmpty then _ else _) = _
      split <;> rfl

namespace Slave

variable (slave : Slave)

theorem isIdle_uncommented : slave.uncommented.isIdle = slave.isIdle :=
  List.isEmpty_map

theorem map_data_uncommented :
    slave.uncommented.commands.map (·.data) = slave.commands.map (·.data) := by
  rw [uncommented, List.map_map]
  rfl

theorem declarations_uncommented :
    slave.uncommented.declarations = slave.declarations.map Declaration.uncommented := by
  have size : Command.totalSize slave.uncommented.commands = Command.totalSize slave.commands := by
    rw [Command.totalSize, Command.totalSize, List.flatMap_def, map_data_uncommented]
    rfl
  have bytes : slave.uncommented.bytesDeclaration? =
      slave.bytesDeclaration?.map Declaration.uncommented := by
    rw [bytesDeclaration?, bytesDeclaration?, size, map_data_uncommented]
    split <;> rfl
  have commands : slave.uncommented.commandsDeclaration =
      slave.commandsDeclaration.uncommented := by
    rw [commandsDeclaration, uncommented, place, placeFrom_uncommented]
    rfl
  rw [declarations, bytes, commands, declarations, List.map_append]
  cases slave.bytesDeclaration? <;> rfl

end Slave

namespace Configuration

variable (configuration : Configuration)

theorem busy_uncommented :
    configuration.uncommented.busy = configuration.busy.map Slave.uncommented := by
  have sorted : configuration.uncommented.sorted =
      configuration.sorted.map Slave.uncommented :=
    (List.map_mergeSort fun first _ second _ =>
      show decide (first.address ≤ second.address) =
        decide (first.uncommented.address ≤ second.uncommented.address) from rfl).symm
  rw [busy, sorted, busy, List.filter_map]
  refine congrArg _ (congrArg (List.filter · _) (funext fun slave => ?_))
  rw [Function.comp_apply, slave.isIdle_uncommented]

/-- Without comments the same is declared, without comments. -/
theorem declarations_uncommented :
    configuration.uncommented.declarations =
      configuration.declarations.map Declaration.uncommented := by
  have table : configuration.uncommented.slavesDeclaration? =
      configuration.slavesDeclaration?.map Declaration.uncommented := by
    rw [slavesDeclaration?, slavesDeclaration?, busy_uncommented, List.isEmpty_map]
    split <;> rfl
  rw [declarations_eq, declarations_eq, List.map_append, shared, shared, table, busy_uncommented,
    List.flatMap_map, List.length_map, List.map_flatMap, List.map_append]
  congr 1
  · exact congrArg (List.flatMap · _) (funext Slave.declarations_uncommented)
  · cases configuration.slavesDeclaration? <;> rfl

theorem unbroken_uncommented {configuration : Configuration} (unbroken : configuration.Unbroken) :
    configuration.uncommented.Unbroken := by
  intro bare member command among
  obtain ⟨slave, given, rfl⟩ := List.mem_map.mp member
  obtain ⟨source, inside, rfl⟩ := List.mem_map.mp among
  exact unbroken slave given source inside

end Configuration

end BusTables
