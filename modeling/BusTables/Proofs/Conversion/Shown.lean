import BusTables.Proofs.Configuration.Described
import BusTables.Proofs.Declaration.Outline
import BusTables.Proofs.Emission.Pointers

/-!
# What the tables show of a document

The tables that are declared for a slave show the values of the element that the slave is built
from: its block the address and the identity (`slaveShown`), and the block of each command the
values of the element of the command, with the bytes found through the pointer (`tablesShown`).
-/

namespace BusTables

namespace Initializer

/-- The lines of the comments in a block. -/
def Item.comments (block : Item) : List String :=
  block.children.filterMap fun item =>
    match item with
    | .comment text => some text
    | _ => none

/-- A block gives a field the text of a value that is there. -/
def Item.Shows (block : Item) (name : String) (text : Option String) : Prop :=
  text.isSome ∧ block.field? name = text

end Initializer

open Initializer Element

/-- A block shows the values that an element gives for a command. -/
structure CommandShown (address : UInt16) (numbers : List Nat) (element : Element)
    (block : Item) : Prop where
  comment : (element.text? ["Comment"]).map writtenLines = some block.comments
  transitions : block.Shows "Transition" (some (transitionMask
    ((element.under ["Transition"]).map fun name => Text.trim name.content)))
  completeAccess : block.Shows "CA"
    (some (if element.attribute? "CompleteAccess" == some "1" then "TRUE" else "FALSE"))
  specifier : block.Shows "Ccs"
    ((element.number? ["Ccs"]).map fun value => toString (UInt8.ofInt value).toNat)
  index : block.Shows "Index"
    ((element.number? ["Index"]).map fun value => Text.hexWord 4 (UInt16.ofInt value).toNat)
  subIndex : block.Shows "SubIdx"
    ((element.number? ["SubIndex"]).map fun value => toString (UInt8.ofInt value).toNat)
  timeout : block.Shows "Timeout"
    ((element.number? ["Timeout"]).map fun value => toString (Int32.ofInt (value * 1000)).toInt)
  data : ∃ data offset, (element.text? ["Data"]).map Payload.ofText = some (.ok data) ∧
    PointsAt address numbers data offset block

/-- Tables show the values that an element gives for the commands of a slave. -/
structure TablesShow (source : Element × Nat) (address : UInt16) (numbers : List Nat)
    (bytes : Option Item) (commands : Item) : Prop where
  addressed : source.1.address? source.2 = some address
  carried : ∀ table ∈ bytes, table.numbers? = some numbers ∧
    table.header? = some s!"static uint8 s{address.toNat}_coeData[{numbers.length}]"
  absent : bytes = none → numbers = []
  named : commands.header? =
    some s!"static ec_enicoecmdt s{address.toNat}_coeCmds[{source.1.enabledCommands.length}]"
  blocks : List.Forall₂ (CommandShown address numbers) source.1.enabledCommands commands.children

/-- The tables of a slave: its bytes, if there are any, and its commands. -/
def TablesShown (source : Element × Nat) (tables : List Item) : Prop :=
  ∃ address numbers bytes commands, tables = bytes.toList ++ [commands] ∧
    TablesShow source address numbers bytes commands

/-- A block shows the values that an element gives for a slave. -/
structure SlaveShown (source : Element × Nat) (block : Item) : Prop where
  address : block.Shows "Slave"
    ((source.1.address? source.2).map fun address => toString address.toNat)
  vendor : block.Shows "VendorId"
    ((source.1.number? ["Info", "VendorId"]).map fun value => toString (UInt32.ofInt value).toNat)
  product : block.Shows "ProductCode" ((source.1.number? ["Info", "ProductCode"]).map fun value =>
    toString (UInt32.ofInt value).toNat)
  revision : block.Shows "RevisionNo" ((source.1.number? ["Info", "RevisionNo"]).map fun value =>
    toString (UInt32.ofInt value).toNat)
  commands : block.Shows "CoECmds"
    ((source.1.address? source.2).map fun address => s!"s{address.toNat}_coeCmds")
  count : block.Shows "CoECmdCount" (some (toString source.1.enabledCommands.length))

namespace Declaration

theorem findSome?_comments (lines : List String) (name : String) :
    (lines.map Item.comment).findSome? (fieldValue? name) = none := by
  induction lines with
  | nil => rfl
  | cons line later ih => rw [List.map_cons, List.findSome?_cons, ih]; rfl

theorem field?_outlinedCommand (address : UInt16) (entry : PlacedCommand) {name : String}
    (asked : ' ' ∉ name.toList) :
    (outlinedCommand address entry).field? name =
      (commandPairs address entry).lookup name := by
  have found := findSome?_fields (named_commandPairs address entry) asked
  rw [outlinedCommand, Item.field?, List.findSome?_append, findSome?_comments, Option.none_or]
  exact found

theorem comments_outlinedCommand (address : UInt16) (entry : PlacedCommand) :
    (outlinedCommand address entry).comments = writtenLines entry.command.comment := by
  have lines (texts : List String) (fields : List Item) :
      (Item.block none (texts.map .comment ++ fields)).comments =
        texts ++ (Item.block none fields).comments := by
    induction texts with
    | nil => rfl
    | cons text later ih => exact congrArg (text :: ·) ih
  rw [outlinedCommand, lines]
  exact List.append_nil _

end Declaration

open Declaration

/-- A value that is described is shown where its text is. -/
theorem shows_of_map {α β : Type} {block : Item} {name : String} {value : Option α} {word : β}
    {reduce : α → β} (described : value.map reduce = some word) (text : β → String)
    (shown : block.field? name = some (text word)) :
    block.Shows name (value.map fun given => text (reduce given)) := by
  have same : (value.map fun given => text (reduce given)) = some (text word) := by
    have mapped := congrArg (Option.map text) described
    rw [Option.map_map] at mapped
    exact mapped
  rw [same]
  exact ⟨rfl, shown⟩

theorem commandShown {element : Element} {slave : Slave} {index : Nat} {command : Command}
    (described : command.Describes element) (given : slave.commands[index]? = some command)
    {offset : Option Nat} (placed : offset = if command.data.isEmpty then none
      else some (Command.sizeBefore slave.commands index)) :
    CommandShown slave.address slave.numbers element
      (outlinedCommand slave.address ⟨command, offset⟩) := by
  have field (name : String) (asked : ' ' ∉ name.toList) :=
    field?_outlinedCommand slave.address ⟨command, offset⟩ asked
  constructor
  · rw [described.comment, Option.map_some, comments_outlinedCommand]
  · rw [described.transitions]
    exact ⟨rfl, field "Transition" (by decide)⟩
  · rw [described.completeAccess]
    exact ⟨rfl, field "CA" (by decide)⟩
  · exact shows_of_map described.specifier (fun word => toString word.toNat)
      (field "Ccs" (by decide))
  · exact shows_of_map described.index (fun word => Text.hexWord 4 word.toNat)
      (field "Index" (by decide))
  · exact shows_of_map described.subIndex (fun word => toString word.toNat)
      (field "SubIdx" (by decide))
  · exact shows_of_map described.timeout (fun word => toString word.toInt)
      (field "Timeout" (by decide))
  · exact ⟨command.data, _, described.data, Slave.pointsAt_of_fields given placed field⟩

theorem blocksShown {elements : List Element} {slave : Slave}
    (described : List.Forall₂ Command.Describes elements slave.commands) :
    List.Forall₂ (CommandShown slave.address slave.numbers) elements
      slave.commandsDeclaration.outlined.children := by
  change List.Forall₂ _ elements ((place slave.commands).map (outlinedCommand slave.address))
  rw [List.forall₂_map_right_iff]
  obtain ⟨count, shown⟩ := List.forall₂_iff_get.mp described
  refine List.forall₂_of_length_eq_of_get (by rw [length_place, count]) fun index inside bound => ?_
  have among : index < slave.commands.length := by rwa [← count]
  have given := List.getElem?_eq_getElem among
  have placed := getElem?_place slave.commands index
  rw [given, Option.map_some, List.getElem?_eq_getElem bound] at placed
  rw [List.get_eq_getElem, List.get_eq_getElem, Option.some.inj placed]
  exact commandShown (shown index inside among) given rfl

theorem tablesShown {source : Element × Nat} {slave : Slave} (described : slave.Describes source) :
    TablesShown source (slave.declarations.map outlined) := by
  have count : source.1.enabledCommands.length = slave.commands.length :=
    described.commands.length_eq
  refine ⟨slave.address, slave.numbers, slave.bytesDeclaration?.map outlined,
    slave.commandsDeclaration.outlined, ?_, ?_⟩
  · rw [Slave.declarations, List.map_append]
    cases slave.bytesDeclaration? <;> rfl
  · constructor
    · exact described.address
    · intro table given
      obtain ⟨declaration, declared, rfl⟩ := Option.map_eq_some_iff.mp given
      obtain ⟨rfl, -⟩ := Slave.bytesDeclaration?_eq_some declared
      have item : (bytes slave.address slave.rows).item ∈
          slave.bytesDeclaration?.map Declaration.item := by
        rw [declared]
        rfl
      exact ⟨slave.pointersExact.listed _ item, slave.pointersExact.declared _ item⟩
    · intro none
      have rows := Slave.bytesDeclaration?_eq_none (Option.map_eq_none_iff.mp none)
      rw [Slave.numbers_eq, ← Slave.flatten_rows, rows]
      rfl
    · change some slave.commandsDeclaration.header = _
      rw [Slave.commandsDeclaration, header_commands, length_place, count]
    · exact blocksShown described.commands

theorem slaveShown {source : Element × Nat} {slave : Slave} (described : slave.Describes source) :
    SlaveShown source (slaveItem slave) := by
  have field (name : String) (asked : ' ' ∉ name.toList) := field?_slaveItem slave asked
  constructor
  · rw [described.address]
    exact ⟨rfl, field "Slave" (by decide)⟩
  · exact shows_of_map described.vendor (fun word => toString word.toNat)
      (field "VendorId" (by decide))
  · exact shows_of_map described.product (fun word => toString word.toNat)
      (field "ProductCode" (by decide))
  · exact shows_of_map described.revision (fun word => toString word.toNat)
      (field "RevisionNo" (by decide))
  · rw [described.address]
    exact ⟨rfl, field "CoECmds" (by decide)⟩
  · rw [described.commands.length_eq]
    exact ⟨rfl, field "CoECmdCount" (by decide)⟩

end BusTables
