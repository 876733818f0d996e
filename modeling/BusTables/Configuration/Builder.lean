import BusTables.Document
import BusTables.Element.Path
import BusTables.Traced

/-!
# Building configurations

A configuration is built from the element that describes the bus.  Each slave is checked in
document order: its optional address, its identity, then its commands.  A disabled command is
left out.  The first check that fails ends the whole run, and numbers are reduced to the width of
the field that takes them.
-/

namespace BusTables

/-- The path from a slave to its commands. -/
def commandPath : String := "Mailbox/CoE/InitCmds/InitCmd"

namespace Command

/-- An attribute or a child of the element says that the command is disabled. -/
def isDisabled (element : Element) : Except Failure Bool :=
  if element.attribute? "Disabled" = some "1" then .ok true
  else do
    let text ← element.readOptionalText "Disabled" ""
    return text == "1"

/-- The name of a transition, which may not be blank. -/
def transition (element : Element) : Except Failure String :=
  let name := Text.trim element.content
  if name.isEmpty then .error (.value .emptyTransition) else .ok name

/-- The time in microseconds of a number of milliseconds. -/
def microseconds (milliseconds : Int) : Int32 := Int32.ofInt (milliseconds * 1000)

/-- The bytes that a text denotes. -/
def payload (text : String) : Except Failure Payload :=
  match Payload.ofText text with
  | .ok bytes => .ok bytes
  | .error fault => .error (.value (.payload fault))

/-- The command that an element describes. -/
def ofElement (element : Element) : Except Failure Command := do
  let named ← element.find "Transition" (some 1) none
  let transitions ← named.mapM transition
  let timeout ← element.readInt "Timeout"
  let digits ← element.readOptionalText "Data" ""
  let comment ← element.readOptionalText "Comment" ""
  let specifier ← element.readInt "Ccs"
  let index ← element.readInt "Index"
  let subIndex ← element.readInt "SubIndex"
  let data ← payload digits
  return {
    comment
    transitions
    completeAccess := element.attribute? "CompleteAccess" == some "1"
    specifier := UInt8.ofInt specifier
    index := UInt16.ofInt index
    subIndex := UInt8.ofInt subIndex
    timeout := microseconds timeout
    data }

/-- The command that an element describes, reported. -/
def build (element : Element) : Traced Command := do
  let command ← ofElement element
  Traced.report (.commandRead command)
  return command

/-- The command that an element describes, unless it is disabled. -/
def buildEnabled (element : Element) : Traced (Option Command) := do
  if ← isDisabled element then
    let comment ← element.readOptionalText "Comment" ""
    Traced.report (.disabled comment)
    return none
  else
    let command ← build element
    return some command

end Command

namespace Slave

/-- The address that a slave has by its automatic increment. -/
def addressOf (increment : Int) : UInt16 := UInt16.ofInt (1 - increment)

/-- The slave that an element at a position describes. -/
def build (element : Element) (position : Int) : Traced Slave := do
  let increment ← element.readOptionalInt "Info/AutoIncAddr" (1 - position)
  let vendor ← element.readInt "Info/VendorId"
  let product ← element.readInt "Info/ProductCode"
  let revision ← element.readInt "Info/RevisionNo"
  let commands ← (element.descendants commandPath).mapM Command.buildEnabled
  let slave : Slave := {
    address := addressOf increment
    vendor := UInt32.ofInt vendor
    product := UInt32.ofInt product
    revision := UInt32.ofInt revision
    commands := commands.reduceOption }
  Traced.report (.slaveRead slave position)
  return slave

end Slave

namespace Configuration

/-- The name of the element that holds the configuration, or of the root that wraps it. -/
def rootName : String := "EtherCATConfig"

/-- The path from a root with a name to the configuration. -/
def pathFrom (root : String) : String :=
  if root = rootName then "Config" else "EtherCATConfig/Config"

/-- The configuration that an element describes; positions count from one. -/
def build (element : Element) : Traced Configuration := do
  let slaves ← ((element.descendants "Slave").zipIdx 1).mapM fun (slave, position) =>
    Slave.build slave position
  return ⟨slaves⟩

/-- The configuration in a document with a given root. -/
def buildFromRoot (root : Element) : Traced Configuration := do
  let path := pathFrom root.name
  Traced.report (.rooted root.name path)
  let element ← root.findOne path
  build element

/-- The configuration in the document with the given bytes. -/
def buildFromContent (parser : Xml.Parser) (content : List UInt8) : Traced Configuration := do
  let root ← Element.ofContent parser content
  buildFromRoot root

end Configuration

end BusTables
