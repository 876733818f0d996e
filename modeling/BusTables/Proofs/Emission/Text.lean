import BusTables.Proofs.Declaration.Outline
import BusTables.Proofs.Declaration.Placement
import BusTables.Proofs.Initializer.Layout

/-!
# The text of a configuration

The declarations of a configuration are those of its busy slaves, one slave after the other, the
table of slaves and the record (`declarations_eq`).  The text is the line that includes the
header, followed by the layout of the declarations as items (`text_eq`).  As long as no name of a
transition holds a line end, the part behind that line can be read back (`read_text`).
-/

namespace BusTables

open Initializer

namespace Slave

/-- What is declared for a slave that has commands. -/
def declarations (slave : Slave) : List Declaration :=
  slave.bytesDeclaration?.toList ++ [slave.commandsDeclaration]

theorem declarations_of_steps (slave : Slave) :
    slave.steps.filterMap Step.declaration? =
      if slave.isIdle then [] else slave.declarations := by
  unfold steps
  split
  · rfl
  · have declared (given : Option Declaration) :
        (given.toList.map Step.declare).filterMap Step.declaration? = given.toList := by
      cases given <;> rfl
    rw [List.filterMap_append, declared]
    rfl

/-- The rows of bytes of a slave: one for each command that carries any. -/
def rows (slave : Slave) : List Payload :=
  (slave.commands.map (·.data)).filter (!·.isEmpty)

theorem full_rows (slave : Slave) : ∀ row ∈ slave.rows, row ≠ [] := by
  intro row member
  simpa using (List.mem_filter.mp member).2

theorem bytesDeclaration?_eq_some {slave : Slave} {declaration : Declaration}
    (declared : slave.bytesDeclaration? = some declaration) :
    declaration = .bytes slave.address slave.rows ∧ slave.rows ≠ [] := by
  unfold bytesDeclaration? at declared
  split at declared
  · cases declared
  · rename_i carried
    refine ⟨(Option.some.inj declared).symm, fun none => carried ?_⟩
    rw [Command.totalSize_eq_zero_iff]
    intro command member
    have kept := List.filter_eq_nil_iff.mp none command.data (List.mem_map_of_mem member)
    simpa using kept

theorem bytesDeclaration?_eq_none {slave : Slave} (declared : slave.bytesDeclaration? = none) :
    slave.rows = [] := by
  unfold bytesDeclaration? at declared
  split at declared
  · rename_i empty
    rw [Command.totalSize_eq_zero_iff] at empty
    simpa [rows] using empty
  · cases declared

end Slave

namespace Declaration

theorem full_fields (pairs : List (String × String)) :
    ∀ item ∈ fields pairs, ∀ text ∈ item.values, text ≠ "" := by
  intro item member text inside
  obtain ⟨pair, -, rfl⟩ := List.mem_map.mp member
  rw [List.mem_singleton.mp inside]
  simp

theorem full_item {declaration : Declaration} (filled : declaration.Filled) :
    ∀ text ∈ declaration.item.values, text ≠ "" := by
  intro text member
  obtain ⟨item, among, inside⟩ := Item.mem_allValues.mp member
  cases declaration with
  | bytes address rows =>
      obtain ⟨row, given, rfl⟩ := List.mem_map.mp among
      have numbers : row.map UInt8.toNat ≠ [] := by simpa using filled.2 row given
      obtain ⟨first, starts, -⟩ := Text.head?_listed numbers
      rw [rowItem_eq] at inside
      rw [List.mem_singleton.mp inside]
      rintro none
      simp [none] at starts
  | commands address entries =>
      obtain ⟨entry, given, rfl⟩ := List.mem_map.mp among
      rw [commandItem_eq, Item.values] at inside
      obtain ⟨part, within, held⟩ := Item.mem_allValues.mp inside
      rcases List.mem_append.mp within with comment | ofField
      · unfold commentItems at comment
        split at comment
        · exact absurd comment List.not_mem_nil
        · rw [List.mem_singleton.mp comment] at held
          exact absurd held List.not_mem_nil
      · exact full_fields _ part ofField text held
  | slaves entries =>
      obtain ⟨slave, given, rfl⟩ := List.mem_map.mp among
      rw [slaveItem_eq, Item.values] at inside
      obtain ⟨part, within, held⟩ := Item.mem_allValues.mp inside
      exact full_fields _ part within text held
  | root count => exact full_fields (rootPairs count) item among text inside

end Declaration

namespace Configuration

/-- The declarations as items. -/
def items (configuration : Configuration) : List Item :=
  configuration.declarations.map Declaration.item

/-- What the slaves share: their table and the record. -/
def shared (configuration : Configuration) : List Declaration :=
  configuration.slavesDeclaration?.toList ++ [.root configuration.busy.length]

/-- Idle slaves leave no trace in the declarations. -/
theorem declarations_eq (configuration : Configuration) :
    configuration.declarations =
      configuration.busy.flatMap Slave.declarations ++ configuration.shared := by
  have slaves (all : List Slave) :
      (all.flatMap Slave.steps).filterMap Step.declaration? =
        (all.filter (!·.isIdle)).flatMap Slave.declarations := by
    induction all with
    | nil => rfl
    | cons slave later ih =>
        rw [List.flatMap_cons, List.filterMap_append, Slave.declarations_of_steps, ih,
          List.filter_cons]
        cases slave.isIdle <;> simp
  have table (given : Option Declaration) :
      (given.toList.map Step.declare).filterMap Step.declaration? = given.toList := by
    cases given <;> rfl
  rw [declarations, plan, List.filterMap_append, List.filterMap_append, slaves, table]
  rfl

theorem mem_busy {configuration : Configuration} {slave : Slave} :
    slave ∈ configuration.busy ↔ slave ∈ configuration.slaves ∧ slave.commands ≠ [] := by
  simp [busy, sorted, Slave.isIdle]

theorem slavesDeclaration?_eq_some {configuration : Configuration} {declaration : Declaration}
    (declared : configuration.slavesDeclaration? = some declaration) :
    declaration = .slaves configuration.busy ∧ configuration.busy ≠ [] := by
  unfold slavesDeclaration? at declared
  split at declared
  · cases declared
  · rename_i nonempty
    exact ⟨(Option.some.inj declared).symm, by simpa using nonempty⟩

theorem slavesDeclaration?_eq_none {configuration : Configuration}
    (declared : configuration.slavesDeclaration? = none) : configuration.busy = [] := by
  unfold slavesDeclaration? at declared
  split at declared
  · rename_i empty
    exact List.isEmpty_iff.mp empty
  · cases declared

/-- A declaration is one of the tables of a busy slave, the table of slaves or the record. -/
theorem declarations_cases {configuration : Configuration} {declaration : Declaration}
    (member : declaration ∈ configuration.declarations) :
    (∃ slave ∈ configuration.busy, slave.rows ≠ [] ∧
        declaration = .bytes slave.address slave.rows) ∨
      (∃ slave ∈ configuration.busy, declaration = slave.commandsDeclaration) ∨
      (configuration.busy ≠ [] ∧ declaration = .slaves configuration.busy) ∨
      declaration = .root configuration.busy.length := by
  rw [declarations_eq, shared, List.mem_append, List.mem_append] at member
  rcases member with ofSlave | table | last
  · obtain ⟨slave, busy, declared⟩ := List.mem_flatMap.mp ofSlave
    rcases List.mem_append.mp declared with bytes | commands
    · obtain ⟨same, nonempty⟩ := Slave.bytesDeclaration?_eq_some (Option.mem_toList.mp bytes)
      exact .inl ⟨slave, busy, nonempty, same⟩
    · exact .inr (.inl ⟨slave, busy, List.mem_singleton.mp commands⟩)
  · obtain ⟨same, nonempty⟩ := slavesDeclaration?_eq_some (Option.mem_toList.mp table)
    exact .inr (.inr (.inl ⟨nonempty, same⟩))
  · exact .inr (.inr (.inr (List.mem_singleton.mp last)))

theorem commandsDeclaration_mem {configuration : Configuration} {slave : Slave}
    (busy : slave ∈ configuration.busy) :
    slave.commandsDeclaration ∈ configuration.busy.flatMap Slave.declarations :=
  List.mem_flatMap.mpr ⟨slave, busy, List.mem_append_right _ (List.mem_singleton.mpr rfl)⟩

theorem mem_declarations_of_slave {configuration : Configuration} {slave : Slave}
    (busy : slave ∈ configuration.busy) :
    slave.commandsDeclaration ∈ configuration.declarations := by
  rw [declarations_eq]
  exact List.mem_append_left _ (commandsDeclaration_mem busy)

theorem filled_of_mem_declarations {configuration : Configuration} {declaration : Declaration}
    (member : declaration ∈ configuration.declarations) : declaration.Filled := by
  rcases declarations_cases member with
    ⟨slave, -, nonempty, rfl⟩ | ⟨slave, busy, rfl⟩ | ⟨nonempty, rfl⟩ | rfl
  · exact ⟨nonempty, slave.full_rows⟩
  · intro none
    have same := map_command_place slave.commands
    rw [none] at same
    exact (mem_busy.mp busy).2 same.symm
  · exact nonempty
  · trivial

theorem command_of_mem_declarations {configuration : Configuration} {address : UInt16}
    {entries : List PlacedCommand} (member : .commands address entries ∈ configuration.declarations)
    {entry : PlacedCommand} (placed : entry ∈ entries) :
    ∃ slave ∈ configuration.slaves, entry.command ∈ slave.commands := by
  rcases declarations_cases member with
    ⟨_, _, _, different⟩ | ⟨slave, busy, same⟩ | ⟨_, different⟩ | different
  · cases different
  · obtain ⟨-, rfl⟩ := Declaration.commands.inj same
    refine ⟨slave, (mem_busy.mp busy).1, ?_⟩
    rw [← map_command_place slave.commands]
    exact List.mem_map_of_mem placed
  · cases different
  · cases different

/-- No name of a transition holds a line end. -/
def Unbroken (configuration : Configuration) : Prop :=
  ∀ slave ∈ configuration.slaves, ∀ command ∈ slave.commands, command.Unbroken

theorem unbroken_of_mem_declarations {configuration : Configuration}
    (unbroken : configuration.Unbroken) {declaration : Declaration}
    (member : declaration ∈ configuration.declarations) : declaration.Unbroken := by
  cases declaration with
  | commands address entries =>
      intro entry placed
      obtain ⟨slave, given, among⟩ := command_of_mem_declarations member placed
      exact unbroken slave given entry.command among
  | bytes | slaves | root => trivial

/-- Every command has transitions, and their names are words. -/
def Regular (configuration : Configuration) : Prop :=
  ∀ slave ∈ configuration.slaves, ∀ command ∈ slave.commands, command.Regular
  deriving Decidable

theorem Regular.unbroken {configuration : Configuration} (regular : configuration.Regular) :
    configuration.Unbroken :=
  fun slave member command among => (regular slave member command among).unbroken

theorem operations_plan (configuration : Configuration) :
    configuration.plan.flatMap Step.operations = Item.allOperations configuration.items := by
  have inTurn (steps : List Step) :
      steps.flatMap Step.operations =
        Item.allOperations ((steps.filterMap Step.declaration?).map Declaration.item) := by
    induction steps with
    | nil => rfl
    | cons step later ih =>
        rw [List.flatMap_cons, ih]
        cases step <;> rfl
  exact inTurn configuration.plan

theorem full_items (configuration : Configuration) :
    ∀ text ∈ Item.allValues configuration.items, text ≠ "" := by
  intro text member
  obtain ⟨item, among, inside⟩ := Item.mem_allValues.mp member
  obtain ⟨declaration, declared, rfl⟩ := List.mem_map.mp among
  exact Declaration.full_item (filled_of_mem_declarations declared) text inside

theorem legible_items {configuration : Configuration} (unbroken : configuration.Unbroken) :
    Item.AllLegible 0 configuration.items := by
  refine Declaration.allLegible_of_forall fun item member isLast => ?_
  obtain ⟨declaration, declared, rfl⟩ := List.mem_map.mp member
  exact Declaration.legible_item (filled_of_mem_declarations declared)
    (unbroken_of_mem_declarations unbroken declared) 0 isLast

end Configuration

namespace Emission

/-- The line that includes a header. -/
def inclusionLine (header : String) : String := "#include \"" ++ header ++ "\"\n"

/-- The text is the line that includes the header and the layout of the declarations. -/
theorem text_eq (header : String) (configuration : Configuration) :
    text header configuration =
      inclusionLine header ++ layoutFile columns configuration.items := by
  have first : (Writer.fresh columns).attempt (inclusion header) =
      ([.directive ("include \"" ++ header ++ "\""), .lineEnd], Writer.fresh columns) :=
    rfl
  have body := Writer.layout_of_run columns configuration.items configuration.full_items
  rw [text, operations, Configuration.operations_plan, Writer.run_cons, first,
    Piece.joined_append, body]
  have line : Piece.joined [.directive ("include \"" ++ header ++ "\""), .lineEnd] =
      inclusionLine header := by
    rw [← String.toList_inj]
    simp [inclusionLine, Piece.text]
  rw [line]

/-- The text, line by line. -/
theorem toList_text (header : String) (configuration : Configuration) :
    (text header configuration).toList =
      Text.unlines (("#include \"" ++ header ++ "\"").toList :: [] ::
        Item.allLines columns 0 configuration.items) := by
  rw [text_eq, String.toList_append, toList_layoutFile]
  simp [inclusionLine]

/-- What is read behind the first line is what was declared. -/
theorem read_text {configuration : Configuration} (unbroken : configuration.Unbroken) :
    readItems? (layoutFile columns configuration.items).toList =
      some (configuration.declarations.map Declaration.outlined) := by
  rw [read_layout columns configuration.items (Configuration.legible_items unbroken)]
  exact congrArg some (Item.outlineAll_map _ Declaration.outline_item configuration.declarations)

end Emission

end BusTables
