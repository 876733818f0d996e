import BusTables.ByteOrderMark
import BusTables.Payload
import BusTables.Text.Quoted
import BusTables.Xml.Parser

/-!
# Failures

A failure has one of four kinds: the document lacks an element or has too many of one (schema),
an element holds a value that cannot be read (value), the document is not well-formed (markup),
or the input cannot be read or the output not written (device).  Each failure has a message.  What
the parser says of the markup, and what the device says, is also the cause of the failure.
-/

namespace BusTables

/-- What is wrong with the elements of a document. -/
inductive SchemaFault where
  | tooMany (path : String)
  | tooFew (path : String)
  | unbalanced
  | rootless
  | other (text : String)
  deriving DecidableEq, Repr

/-- What is wrong with the value of an element. -/
inductive ValueFault where
  | integer (literal path : String)
  | emptyTransition
  | payload (fault : Payload.Fault)
  | other (text : String)
  deriving DecidableEq, Repr

/-- Why the system refuses to do something: its description and its number. -/
structure SystemFault where
  description : String
  code : Nat
  deriving DecidableEq, Repr

/-- What went wrong outside the conversion. -/
inductive DeviceFault where
  | unopenedBrace
  | full
  | unopenable (name : String) (reason : SystemFault)
  | unwritable (reason : SystemFault)
  | encoding (mark : ByteOrderMark)
  | other (text : String)
  deriving DecidableEq, Repr

/-- Why a conversion ends without a result. -/
inductive Failure where
  | schema (fault : SchemaFault)
  | value (fault : ValueFault)
  | markup (fault : Xml.Fault)
  | device (fault : DeviceFault)
  deriving DecidableEq, Repr

namespace SystemFault

/-- No file has the name. -/
def notFound : SystemFault := ⟨"No such file or directory", 2⟩

/-- What has the name leads to no device. -/
def noDevice : SystemFault := ⟨"No such device or address", 6⟩

/-- The system does not allow it. -/
def notPermitted : SystemFault := ⟨"Permission denied", 13⟩

/-- A file stands where the name needs a directory. -/
def notDirectory : SystemFault := ⟨"Not a directory", 20⟩

/-- The name is that of a directory. -/
def isDirectory : SystemFault := ⟨"Is a directory", 21⟩

/-- A part of the name is longer than the system allows. -/
def nameTooLong : SystemFault := ⟨"File name too long", 36⟩

/-- No more bytes can be kept. -/
def noSpace : SystemFault := ⟨"No space left on device", 28⟩

/-- The description followed by the number. -/
def message (fault : SystemFault) : String :=
  s!"{fault.description} (os error {fault.code})"

end SystemFault

/-- The text of a payload fault. -/
def Payload.Fault.message : Payload.Fault → String
  | .oddLength => "Odd number of digits"
  | .wrongLength => "Invalid string length"
  | .invalidByte byte position =>
      "Invalid character " ++ Text.quotedByte byte ++ s!" at position {position}"

/-- The text of a schema fault. -/
def SchemaFault.message : SchemaFault → String
  | .tooMany path => "Too many " ++ path ++ " elements"
  | .tooFew path => "Too few " ++ path ++ " elements"
  | .unbalanced => "Unbalanced end element"
  | .rootless => "Document has no root element"
  | .other text => text

/-- The text of a value fault. -/
def ValueFault.message : ValueFault → String
  | .integer literal path => "Invalid integer literal '" ++ literal ++ "' in " ++ path
  | .emptyTransition => "Empty Transition element"
  | .payload fault => "Invalid hex data: " ++ fault.message
  | .other text => text

/-- The text of a device fault. -/
def DeviceFault.message : DeviceFault → String
  | .unopenedBrace => "closing more braces than were opened"
  | .full => "writer is full"
  | .unopenable name reason => "can't open '" ++ name ++ "': " ++ reason.message
  | .unwritable reason => reason.message
  | .encoding mark => "unsupported Unicode file encoding: " ++ mark.name
  | .other text => text

namespace Failure

/-- The text of a failure. -/
def message : Failure → String
  | .schema fault => fault.message
  | .value fault => fault.message
  | .markup fault => "XML parsing error: " ++ fault.text
  | .device fault => fault.message

/-- The text of the failure underneath, which a failure of the markup or of a device has. -/
def cause? : Failure → Option String
  | .schema _ => none
  | .value _ => none
  | .markup fault => some fault.text
  | .device fault => some fault.message

end Failure

end BusTables
