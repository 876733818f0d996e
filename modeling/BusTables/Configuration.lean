import BusTables.Payload

/-!
# Configurations

The configuration of a bus is the list of its slaves.  A slave has an address on the bus, the
identity by which a master recognizes it, and the commands that initialize it over the mailbox.
All numbers are words of the width that the generated tables give them.
-/

namespace BusTables

/-- A mailbox command that is sent at certain transitions of the state of a slave. -/
structure Command where
  comment : String
  /-- The names of the transitions, such as `PS`. -/
  transitions : List String
  completeAccess : Bool
  /-- The command specifier. -/
  specifier : UInt8
  index : UInt16
  subIndex : UInt8
  /-- The time to wait for the answer, in microseconds. -/
  timeout : Int32
  data : Payload
  deriving DecidableEq, Repr

/-- A device on the bus. -/
structure Slave where
  address : UInt16
  vendor : UInt32
  product : UInt32
  revision : UInt32
  commands : List Command
  deriving DecidableEq, Repr

/-- The slaves of a bus in document order. -/
structure Configuration where
  slaves : List Slave
  deriving DecidableEq, Repr

/-- A slave that no command initializes has no place in the tables. -/
def Slave.isIdle (slave : Slave) : Bool := slave.commands.isEmpty

/-- The number of bytes that the commands of a list carry. -/
def Command.totalSize (commands : List Command) : Nat :=
  (commands.flatMap (·.data)).length

end BusTables
