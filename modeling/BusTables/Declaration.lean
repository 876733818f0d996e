import BusTables.Configuration
import BusTables.Initializer.Item
import BusTables.Text.Blank
import BusTables.Text.Digits

/-!
# Declarations

The tables of a configuration are declarations with initializers.  A slave has a table of the
bytes that its commands carry, if they carry any, and a table of its commands, each of which
points into the bytes.  The slaves have one table, each pointing at its commands, and a record
points at that table.
-/

namespace BusTables

/-- A command and the place of its bytes in the table of bytes; none if it carries none. -/
structure PlacedCommand where
  command : Command
  offset : Option Nat
  deriving DecidableEq, Repr

/-- What the generated text declares. -/
inductive Declaration where
  /-- The bytes that the commands of a slave carry, a row for each command that carries any. -/
  | bytes (address : UInt16) (rows : List Payload)
  /-- The commands of a slave. -/
  | commands (address : UInt16) (entries : List PlacedCommand)
  /-- The slaves that are not idle. -/
  | slaves (entries : List Slave)
  /-- The record that holds the number of those slaves. -/
  | root (count : Nat)
  deriving DecidableEq, Repr

/-- The commands with the places of their bytes, of which the first is to be at an offset. -/
def placeFrom (offset : Nat) : List Command → List PlacedCommand
  | [] => []
  | command :: later =>
      if command.data.isEmpty then ⟨command, none⟩ :: placeFrom offset later
      else ⟨command, some offset⟩ :: placeFrom (offset + command.data.length) later

/-- The commands with the places of their bytes in the table. -/
def place (commands : List Command) : List PlacedCommand := placeFrom 0 commands

/-- The mask of the transitions that are named. -/
def transitionMask (transitions : List String) : String :=
  let names := transitions.map ("ECT_ESMTRANS_" ++ ·)
  if 1 < names.length then "(" ++ String.intercalate " | " names ++ ")" else String.join names

/-- The pointer to nothing. -/
def nullPointer : String := "NULL"

/-- The name of the table of bytes of a slave. -/
def bytesName (address : UInt16) : String := s!"s{address.toNat}_coeData"

/-- The name of the table of commands of a slave. -/
def commandsName (address : UInt16) : String := s!"s{address.toNat}_coeCmds"

/-- The name of the table of slaves. -/
def slavesName : String := "eniSlave"

/-- The name of the record. -/
def rootName : String := "ec_eni"

namespace Declaration

/-- The name that is declared. -/
def name : Declaration → String
  | .bytes address _ => bytesName address
  | .commands address _ => commandsName address
  | .slaves _ => slavesName
  | .root _ => rootName

/-- The number of initializers of a table. -/
def length : Declaration → Nat
  | .bytes _ rows => rows.flatten.length
  | .commands _ entries => entries.length
  | .slaves entries => entries.length
  | .root count => count

/-- The type of the initializers. -/
def type : Declaration → String
  | .bytes .. => "static uint8"
  | .commands .. => "static ec_enicoecmdt"
  | .slaves _ => "static ec_enislavet"
  | .root _ => "ec_enit"

/-- The type, the name and, for a table, the length. -/
def header (declaration : Declaration) : String :=
  match declaration with
  | .root _ => declaration.type ++ " " ++ declaration.name
  | _ => declaration.type ++ " " ++ declaration.name ++ s!"[{declaration.length}]"

/-- A row of bytes. -/
def rowItem (row : Payload) : Initializer.Item :=
  .value (String.intercalate ", " (row.map fun byte => toString byte.toNat))

/-- The initializer of a field. -/
def field (name value : String) : Initializer.Item :=
  .value ("." ++ name ++ " = " ++ value)

/-- A comment, unless it is blank. -/
def commentItems (text : String) : List Initializer.Item :=
  if (Text.trim text).isEmpty then [] else [.comment text]

/-- The pointer to the bytes of a command. -/
def dataPointer (address : UInt16) (offset : Option Nat) : String :=
  match offset with
  | some offset => "(" ++ bytesName address ++ s!" + {offset})"
  | none => nullPointer

/-- A command of a slave. -/
def commandItem (address : UInt16) (entry : PlacedCommand) : Initializer.Item :=
  let command := entry.command
  .block none (commentItems command.comment ++
    [field "Transition" (transitionMask command.transitions),
      field "CA" (if command.completeAccess then "TRUE" else "FALSE"),
      field "Ccs" (toString command.specifier.toNat),
      field "Index" (Text.hexWord 4 command.index.toNat),
      field "SubIdx" (toString command.subIndex.toNat),
      field "Timeout" (toString command.timeout.toInt),
      field "DataSize" (toString command.data.length),
      field "Data" (dataPointer address entry.offset)])

/-- A slave. -/
def slaveItem (slave : Slave) : Initializer.Item :=
  .block none
    [field "Slave" (toString slave.address.toNat),
      field "VendorId" (toString slave.vendor.toNat),
      field "ProductCode" (toString slave.product.toNat),
      field "RevisionNo" (toString slave.revision.toNat),
      field "CoECmds" (commandsName slave.address),
      field "CoECmdCount" (toString slave.commands.length)]

/-- The initializers of a declaration. -/
def items : Declaration → List Initializer.Item
  | .bytes _ rows => rows.map rowItem
  | .commands address entries => entries.map (commandItem address)
  | .slaves entries => entries.map slaveItem
  | .root count =>
      [field "slave" (if count = 0 then nullPointer else slavesName),
        field "slavecount" (toString count)]

/-- A declaration as an item at file scope. -/
def item (declaration : Declaration) : Initializer.Item :=
  .block (some declaration.header) declaration.items

end Declaration

end BusTables
