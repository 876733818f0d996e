import BusTables.Proofs.Declaration.Reference
import BusTables.Proofs.Emission.Pointers
import BusTables.Proofs.Topics
import Mathlib.Algebra.GroupWithZero.Nat

/-!
# Emission in passes

The emission may be told in passes, each of which looks at all slaves, or at all commands of a
slave, anew.  The first pass over the slaves emits their tables and leaves a reference for each; the
references that lead somewhere are counted, and a second pass pairs the slaves with them and skips
the others.  The bytes of a slave are added up before they are listed, and the pointers into them
are made behind that.  Nothing of this shows in what is done: the acts of all passes are the steps
of the plan (`acts_of_passes`).
-/

namespace BusTables.Passes

open Initializer

/-- An entry of the log, and the operations of the writer behind it. -/
structure Act where
  entry : Level × String
  operations : List Operation

/-- The number of initializers of a table, and how the table is referred to. -/
abbrev Reference := Nat × String

/-- The reference to no table. -/
def nowhere : Reference := (0, "NULL")

/-- A table with so many initializers, which some operations write. -/
def table (type name : String) (count : Nat) (inner : List Operation) : Act :=
  ⟨(.trace, "Emitting " ++ name ++ s!"[{count}]"),
    .openBlock (some (type ++ " " ++ name ++ s!"[{count}]")) 1 :: (inner ++ [.closeBlock 1])⟩

/-- A line that gives a field a value. -/
def assign (field value : String) : Operation := .line ("." ++ field ++ " = " ++ value)

/-- The size of the bytes of each command and the pointer to them, in the table with a name. -/
def pointersFrom (name : String) (offset : Nat) : List Command → List Reference
  | [] => []
  | command :: later =>
      if 0 < command.data.length then
        (command.data.length, "(" ++ name ++ s!" + {offset})") ::
          pointersFrom name (offset + command.data.length) later
      else nowhere :: pointersFrom name offset later

/-- The pass over the bytes of commands, and then the pass over the pointers to them. -/
def bytes (address : UInt16) (commands : List Command) : List Act × List Reference :=
  let name := s!"s{address.toNat}_coeData"
  let size := (commands.map (·.data.length)).sum
  let rows := (commands.filter (!·.data.isEmpty)).map fun command =>
    Operation.line (String.intercalate ", " (command.data.map fun byte => toString byte.toNat))
  (if 0 < size then [table "static uint8" name size rows] else [], pointersFrom name 0 commands)

/-- The operations that write a command with the reference to its bytes. -/
def command (given : Command) (data : Reference) : List Operation :=
  .openBlock none 1 ::
    ((if (Text.trim given.comment).isEmpty then [] else [.comment given.comment]) ++
      [assign "Transition" (transitionMask given.transitions),
        assign "CA" (if given.completeAccess then "TRUE" else "FALSE"),
        assign "Ccs" (toString given.specifier.toNat),
        assign "Index" (Text.hexWord 4 given.index.toNat),
        assign "SubIdx" (toString given.subIndex.toNat),
        assign "Timeout" (toString given.timeout.toInt),
        assign "DataSize" (toString data.1), assign "Data" data.2, .closeBlock 1])

/-- The pass over the commands of a slave, behind that over their bytes. -/
def commands (slave : Slave) : List Act × Reference :=
  let count := slave.commands.length
  if count = 0 then
    let text :=
      s!"Slave {slave.address.toNat} has no CoE init commands; leaving it out of the slave table"
    ([⟨(.info, text), []⟩], nowhere)
  else
    let name := s!"s{slave.address.toNat}_coeCmds"
    let (acts, pointers) := bytes slave.address slave.commands
    let rows := (slave.commands.zip pointers).flatMap fun (given, data) => command given data
    (acts ++ [table "static ec_enicoecmdt" name count rows], (count, name))

/-- The operations that write a slave with the reference to its commands. -/
def slave (given : Slave) (reference : Reference) : List Operation :=
  [.openBlock none 1, assign "Slave" (toString given.address.toNat),
    assign "VendorId" (toString given.vendor.toNat),
    assign "ProductCode" (toString given.product.toNat),
    assign "RevisionNo" (toString given.revision.toNat), assign "CoECmds" reference.2,
    assign "CoECmdCount" (toString reference.1), .closeBlock 1]

/-- The pass over the slaves for their commands, and then the pass over the slaves themselves. -/
def slaves (given : List Slave) : List Act × Reference :=
  let passes := given.map commands
  let references := passes.map Prod.snd
  let count := (references.filter (0 < ·.1)).length
  let rows := (given.zip references).flatMap fun (one, reference) =>
    if reference.1 = 0 then [] else slave one reference
  if count = 0 then (passes.flatMap Prod.fst, nowhere)
  else
    (passes.flatMap Prod.fst ++ [table "static ec_enislavet" "eniSlave" count rows],
      (count, "eniSlave"))

/-- All passes over a configuration, up to the record. -/
def acts (configuration : Configuration) : List Act :=
  let (acts, reference) := slaves configuration.sorted
  acts ++ [⟨(.trace, "Emitting ec_eni" ++ s!" with {reference.1} slave(s)"),
    [.openBlock (some "ec_enit ec_eni") 1, assign "slave" reference.2,
      assign "slavecount" (toString reference.1), .closeBlock 1]⟩]

/-- What a step of the plan does. -/
def ofStep (step : Step) : Act := ⟨step.message.entry, step.operations⟩

section Operations

theorem allOperations_eq (items : List Item) :
    Item.allOperations items = items.flatMap Item.operations := by
  induction items with
  | nil => rfl
  | cons item later ih => rw [Item.allOperations, ih, List.flatMap_cons]

theorem operations_block (header : Option String) (items : List Item) :
    (Item.block header items).operations =
      .openBlock header 1 :: (items.flatMap Item.operations ++ [.closeBlock 1]) := by
  rw [Item.operations, allOperations_eq]

theorem command_eq (address : UInt16) (entry : PlacedCommand) :
    command entry.command
        (entry.command.data.length, Declaration.dataPointer address entry.offset) =
      (Declaration.commandItem address entry).operations := by
  rw [Declaration.commandItem, operations_block, List.flatMap_append, command,
    Declaration.commentItems]
  split <;> rfl

theorem slave_eq (given : Slave) :
    slave given (given.commands.length, commandsName given.address) =
      (Declaration.slaveItem given).operations :=
  rfl

/-- The table for a declaration that is not the record. -/
theorem ofStep_declare {declaration : Declaration} (listed : declaration.isRoot = false) :
    ofStep (.declare declaration) =
      table declaration.type declaration.name declaration.length
        (declaration.items.flatMap Item.operations) := by
  rw [ofStep, Step.operations, Declaration.item, operations_block]
  cases declaration with
  | root count => cases listed
  | bytes | commands | slaves => rfl

end Operations

theorem pointersFrom_eq (address : UInt16) (offset : Nat) (commands : List Command) :
    pointersFrom (bytesName address) offset commands =
      (placeFrom offset commands).map fun entry =>
        (entry.command.data.length, Declaration.dataPointer address entry.offset) := by
  induction commands generalizing offset with
  | nil => rfl
  | cons command later ih =>
      by_cases empty : command.data = []
      · simp [pointersFrom, placeFrom, empty, ih, nowhere, Declaration.dataPointer, nullPointer]
      · have carried : 0 < command.data.length := List.length_pos_iff.mpr empty
        simp [pointersFrom, placeFrom, empty, carried, ih, Declaration.dataPointer]

/-- The rows of commands pair each command with its own place. -/
theorem rows_of_commands (address : UInt16) (commands : List Command) :
    ((commands.zip (pointersFrom (bytesName address) 0 commands)).flatMap fun (given, data) =>
        command given data) =
      (place commands).flatMap fun entry => (Declaration.commandItem address entry).operations := by
  have pairs : commands.zip (pointersFrom (bytesName address) 0 commands) =
      (place commands).map fun entry => (entry.command,
        (entry.command.data.length, Declaration.dataPointer address entry.offset)) := by
    rw [pointersFrom_eq]
    conv_lhs => arg 1; rw [← map_command_place commands]
    exact List.zip_map'
  rw [pairs, List.flatMap_map]
  exact congrArg (List.flatMap · (place commands)) (funext (command_eq address))

theorem sum_eq_totalSize (commands : List Command) :
    (commands.map (·.data.length)).sum = Command.totalSize commands := by
  induction commands with
  | nil => rfl
  | cons command later ih => rw [List.map_cons, List.sum_cons, ih, Command.totalSize_cons]

/-- What is added up is what is listed. -/
theorem sum_eq_length (slave : Slave) :
    (slave.commands.map (·.data.length)).sum =
      (Declaration.bytes slave.address slave.rows).length := by
  rw [sum_eq_totalSize, Declaration.length, slave.flatten_rows, Command.totalSize]

theorem rows_of_bytes (slave : Slave) :
    ((slave.commands.filter (!·.data.isEmpty)).map fun command =>
        Operation.line (String.intercalate ", "
          (command.data.map fun byte => toString byte.toNat))) =
      (Declaration.bytes slave.address slave.rows).items.flatMap Item.operations := by
  change _ = (slave.rows.map Declaration.rowItem).flatMap Item.operations
  rw [Slave.rows, List.filter_map, List.map_map, List.flatMap_map, List.map_eq_flatMap]
  rfl

theorem bytes_eq (slave : Slave) :
    bytes slave.address slave.commands =
      (slave.bytesDeclaration?.toList.map fun declaration => ofStep (.declare declaration),
        pointersFrom (bytesName slave.address) 0 slave.commands) := by
  have same : (Declaration.bytes slave.address slave.rows).isRoot = false := rfl
  have table := ofStep_declare same
  rw [← sum_eq_length, ← rows_of_bytes] at table
  unfold bytes Slave.bytesDeclaration?
  dsimp only
  rw [sum_eq_totalSize] at table ⊢
  by_cases none : Command.totalSize slave.commands = 0
  · rw [if_neg (by omega), if_pos none]
    rfl
  · rw [if_pos (by omega), if_neg none]
    exact congrArg (·, _) (congrArg ([·]) table.symm)

/-- The reference to the commands of a slave. -/
def reference (slave : Slave) : Reference :=
  if slave.isIdle then nowhere else (slave.commands.length, commandsName slave.address)

theorem commands_eq (slave : Slave) :
    commands slave = (slave.steps.map ofStep, reference slave) := by
  have isIdle : slave.isIdle = true ↔ slave.commands.length = 0 := by
    rw [Slave.isIdle, List.isEmpty_iff, List.length_eq_zero_iff]
  unfold commands Slave.steps reference
  by_cases idle : slave.commands.length = 0
  · rw [if_pos idle, if_pos (isIdle.mpr idle), if_pos (isIdle.mpr idle)]
    rfl
  · have same : slave.commandsDeclaration.isRoot = false := rfl
    have table := ofStep_declare same
    change _ = Passes.table "static ec_enicoecmdt" (commandsName slave.address)
      (place slave.commands).length
      (((place slave.commands).map (Declaration.commandItem slave.address)).flatMap
        Item.operations) at table
    rw [length_place, List.flatMap_map, ← rows_of_commands] at table
    rw [if_neg idle, if_neg (mt isIdle.mp idle), if_neg (mt isIdle.mp idle), List.map_append,
      List.map_map, List.map_singleton, table]
    dsimp only
    rw [bytes_eq]
    rfl

theorem reference_of_idle {slave : Slave} (idle : slave.isIdle = true) :
    reference slave = nowhere :=
  if_pos idle

theorem reference_of_busy {slave : Slave} (busy : slave.isIdle = false) :
    reference slave = (slave.commands.length, commandsName slave.address) :=
  if_neg (by rw [busy]; exact Bool.false_ne_true)

theorem pos_of_busy {slave : Slave} (busy : slave.isIdle = false) : 0 < slave.commands.length :=
  List.length_pos_iff.mpr (List.isEmpty_eq_false_iff.mp busy)

/-- The references that lead somewhere are those of the busy slaves. -/
theorem count_references (given : List Slave) :
    ((given.map reference).filter (0 < ·.1)).length = (given.filter (!·.isIdle)).length := by
  have counted : ((fun found : Reference => decide (0 < found.1)) ∘ reference) =
      fun slave => !slave.isIdle := by
    funext slave
    cases idle : slave.isIdle with
    | true =>
        rw [Function.comp_apply, reference_of_idle idle]
        rfl
    | false =>
        rw [Function.comp_apply, reference_of_busy idle]
        exact decide_eq_true (pos_of_busy idle)
  rw [List.filter_map, List.length_map, counted]

/-- The second pass over the slaves writes those that have commands. -/
theorem rows_of_slaves (given : List Slave) :
    ((given.zip (given.map reference)).flatMap fun (one, reference) =>
        if reference.1 = 0 then [] else slave one reference) =
      (given.filter (!·.isIdle)).flatMap fun one => (Declaration.slaveItem one).operations := by
  induction given with
  | nil => rfl
  | cons one later ih =>
      rw [List.map_cons, List.zip_cons_cons, List.flatMap_cons, ih]
      cases idle : one.isIdle with
      | true =>
          rw [List.filter_cons_of_neg (by simp [idle]), reference_of_idle idle]
          rfl
      | false =>
          have some : one.commands.length ≠ 0 := (pos_of_busy idle).ne'
          rw [List.filter_cons_of_pos (by simp [idle]), List.flatMap_cons, reference_of_busy idle,
            ← slave_eq]
          exact congrArg (· ++ _) (if_neg some)

theorem slaves_eq (configuration : Configuration) :
    slaves configuration.sorted =
      ((configuration.sorted.flatMap Slave.steps ++
          configuration.slavesDeclaration?.toList.map Step.declare).map ofStep,
        (configuration.busy.length,
          if configuration.busy.length = 0 then nullPointer else slavesName)) := by
  have passes : configuration.sorted.map commands =
      configuration.sorted.map fun slave => (slave.steps.map ofStep, reference slave) :=
    List.map_congr_left fun slave _ => commands_eq slave
  have references : (configuration.sorted.map commands).map Prod.snd =
      configuration.sorted.map reference := by
    rw [passes, List.map_map]
    rfl
  have emitted : (configuration.sorted.map commands).flatMap Prod.fst =
      (configuration.sorted.flatMap Slave.steps).map ofStep := by
    rw [passes, List.flatMap_map, List.map_flatMap]
  have same : (Declaration.slaves configuration.busy).isRoot = false := rfl
  have table : ofStep (.declare (.slaves configuration.busy)) =
      Passes.table "static ec_enislavet" "eniSlave" configuration.busy.length
        ((configuration.busy.map Declaration.slaveItem).flatMap Item.operations) :=
    ofStep_declare same
  rw [List.flatMap_map] at table
  unfold slaves Configuration.slavesDeclaration?
  dsimp only
  rw [references, emitted, count_references, rows_of_slaves]
  have busy : configuration.sorted.filter (!·.isIdle) = configuration.busy := rfl
  rw [busy]
  by_cases none : configuration.busy = []
  · rw [none]
    exact congrArg (·, _) (by simp)
  · have some : configuration.busy.length ≠ 0 := mt List.length_eq_zero_iff.mp none
    have full : ¬configuration.busy.isEmpty = true := mt List.isEmpty_iff.mp none
    rw [if_neg some, if_neg full, if_neg some, List.map_append]
    exact congrArg (fun last => (_ ++ [last], _)) table.symm

/-- The acts of all passes are the steps of the plan. -/
theorem acts_of_passes (configuration : Configuration) :
    acts configuration = configuration.plan.map ofStep := by
  have root : ofStep (.declare (.root configuration.busy.length)) =
      ⟨(.trace, "Emitting ec_eni" ++ s!" with {configuration.busy.length} slave(s)"),
        [.openBlock (some "ec_enit ec_eni") 1,
          assign "slave" (if configuration.busy.length = 0 then nullPointer else slavesName),
          assign "slavecount" (toString configuration.busy.length), .closeBlock 1]⟩ :=
    rfl
  rw [acts, slaves_eq, Configuration.plan, ← List.append_assoc, List.map_append, List.map_append,
    List.map_append, List.map_singleton, root]

/-- The text is what the operations of all passes write. -/
theorem text_of_passes (header : String) (configuration : Configuration) :
    Emission.text header configuration =
      Piece.joined ((Writer.fresh Emission.columns).run
        (Emission.inclusion header :: ((acts configuration).flatMap Act.operations ++
          [.newline]))).1 := by
  rw [acts_of_passes, List.flatMap_map]
  rfl

/-- The log of the emission has the entries of all passes. -/
theorem entries_of_passes (configuration : Configuration) :
    (configuration.plan.map Step.message).map Message.entry =
      (acts configuration).map Act.entry := by
  rw [acts_of_passes, List.map_map, List.map_map]
  rfl

end BusTables.Passes
