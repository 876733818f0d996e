import BusTables.Initializer.Writer
import BusTables.Log

/-!
# Emission

The declarations of a configuration come in the order in which they refer to each other: for each
slave, by ascending address, the bytes and then the commands; the table of slaves; the record.
Slaves of equal address keep their order.  An idle slave is passed over with a message.

`Configuration.plan` lists what is declared and what is passed over.  `Emission.parts` is the
text in the portions in which it is written, with the messages in between, and `Emission.text`
is the whole text.
-/

namespace BusTables

/-- A slave is passed over, or something is declared. -/
inductive Step where
  | pass (address : UInt16)
  | declare (declaration : Declaration)
  deriving DecidableEq, Repr

namespace Step

/-- The message that goes before a step. -/
def message : Step → Message
  | .pass address => .idle address
  | .declare declaration => .declaring declaration

/-- What a step declares. -/
def declaration? : Step → Option Declaration
  | .pass _ => none
  | .declare declaration => some declaration

/-- The operations that write what a step declares. -/
def operations : Step → List Initializer.Operation
  | .pass _ => []
  | .declare declaration => declaration.item.operations

end Step

namespace Slave

/-- The declaration of the bytes that the commands of a slave carry, if they carry any. -/
def bytesDeclaration? (slave : Slave) : Option Declaration :=
  if Command.totalSize slave.commands = 0 then none
  else some (.bytes slave.address ((slave.commands.map (·.data)).filter (!·.isEmpty)))

/-- The declaration of the commands of a slave. -/
def commandsDeclaration (slave : Slave) : Declaration :=
  .commands slave.address (place slave.commands)

/-- The steps for one slave. -/
def steps (slave : Slave) : List Step :=
  if slave.isIdle then [.pass slave.address]
  else slave.bytesDeclaration?.toList.map .declare ++ [.declare slave.commandsDeclaration]

end Slave

namespace Configuration

/-- The slaves by ascending address; those of equal address keep their order. -/
def sorted (configuration : Configuration) : List Slave :=
  configuration.slaves.mergeSort fun first second => first.address ≤ second.address

/-- The slaves that have commands, by ascending address. -/
def busy (configuration : Configuration) : List Slave :=
  configuration.sorted.filter (!·.isIdle)

/-- The declaration of the table of slaves, unless all are idle. -/
def slavesDeclaration? (configuration : Configuration) : Option Declaration :=
  if configuration.busy.isEmpty then none else some (.slaves configuration.busy)

/-- The steps for a configuration. -/
def plan (configuration : Configuration) : List Step :=
  configuration.sorted.flatMap Slave.steps ++
    (configuration.slavesDeclaration?.toList.map .declare ++
      [.declare (.root configuration.busy.length)])

/-- What is declared for a configuration. -/
def declarations (configuration : Configuration) : List Declaration :=
  configuration.plan.filterMap Step.declaration?

end Configuration

/-- A message, or a portion of text. -/
inductive Part where
  | note (message : Message)
  | portion (text : String)
  deriving DecidableEq, Repr

/-- The message that a part is. -/
def Part.message? : Part → Option Message
  | .note message => some message
  | .portion _ => none

/-- The text that a part is. -/
def Part.text? : Part → Option String
  | .note _ => none
  | .portion text => some text

namespace Emission

open Initializer

/-- The width of an indentation. -/
def columns : Nat := 3

/-- The header that is included unless another one is asked for. -/
def defaultHeader : String := "soem/soem.h"

/-- The operation that writes the line that includes a header. -/
def inclusion (header : String) : Operation := .directive ("include \"" ++ header ++ "\"")

/-- All operations for a configuration, the end of the last line among them. -/
def operations (header : String) (configuration : Configuration) : List Operation :=
  inclusion header :: (configuration.plan.flatMap Step.operations ++ [.newline])

/-- The parts for steps, and for the end of the last line. -/
def stepParts (writer : Writer) : List Step → List Part
  | [] => [.portion (Piece.joined (writer.run [.newline]).1)]
  | step :: later =>
      let (pieces, next) := writer.run step.operations
      .note step.message :: .portion (Piece.joined pieces) :: stepParts next later

/-- The text for a configuration in portions, with the messages in between. -/
def parts (header : String) (configuration : Configuration) : List Part :=
  let (pieces, next) := (Writer.fresh columns).run [inclusion header]
  .portion (Piece.joined pieces) :: stepParts next configuration.plan

/-- The text for a configuration. -/
def text (header : String) (configuration : Configuration) : String :=
  Piece.joined ((Writer.fresh columns).run (operations header configuration)).1

/-- The portions for steps make up what the operations of the steps write. -/
theorem join_stepParts (writer : Writer) (steps : List Step) :
    String.join ((stepParts writer steps).filterMap Part.text?) =
      Piece.joined (writer.run (steps.flatMap Step.operations ++ [.newline])).1 := by
  induction steps generalizing writer with
  | nil => simp [stepParts, Part.text?]
  | cons step later ih =>
      simp [stepParts, List.filterMap_cons, Part.text?, ih, List.append_assoc,
        Writer.run_append writer step.operations]

/-- The portions make up the whole text. -/
theorem join_parts (header : String) (configuration : Configuration) :
    String.join ((parts header configuration).filterMap Part.text?) =
      text header configuration := by
  simp [parts, text, operations, Part.text?, join_stepParts, Writer.run_cons]

/-- The messages for a configuration are those of its steps. -/
theorem messages_parts (header : String) (configuration : Configuration) :
    (parts header configuration).filterMap Part.message? =
      configuration.plan.map Step.message := by
  have messages (writer : Writer) (steps : List Step) :
      (stepParts writer steps).filterMap Part.message? = steps.map Step.message := by
    induction steps generalizing writer with
    | nil => rfl
    | cons step later ih => simp [stepParts, List.filterMap_cons, Part.message?, ih]
  simp [parts, List.filterMap_cons, Part.message?, messages]

end Emission

end BusTables
