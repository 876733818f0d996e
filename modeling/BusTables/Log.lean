import BusTables.Declaration

/-!
# Messages about a run

A run reports the files that it handles, what it reads from the document, and what it declares.
A message has a level of detail and is said by one part of the program.
-/

namespace BusTables

/-- Levels of detail, the most severe first. -/
inductive Level where
  | error
  | warn
  | info
  | debug
  | trace
  deriving DecidableEq, Repr

namespace Level

/-- How detailed a level is. -/
def rank : Level → Nat
  | .error => 1
  | .warn => 2
  | .info => 3
  | .debug => 4
  | .trace => 5

/-- The name of a level. -/
def name : Level → String
  | .error => "ERROR"
  | .warn => "WARN"
  | .info => "INFO"
  | .debug => "DEBUG"
  | .trace => "TRACE"

/-- The name of a level, filled up with blanks to five columns. -/
def column (level : Level) : String :=
  level.name ++ String.ofList (List.replicate (5 - level.name.length) ' ')

end Level

/-- The parts of the program that say something. -/
inductive Speaker where
  | commandLine
  | builder
  | emitter
  deriving DecidableEq, Repr

/-- The name under which a part of the program speaks. -/
def Speaker.name : Speaker → String
  | .commandLine => "eniconv"
  | .builder => "eniconv::config"
  | .emitter => "eniconv::generate"

/-- What is reported. -/
inductive Message where
  | processing (file : String)
  | writing (file : String)
  /-- The root of the document, and the path from there to the configuration. -/
  | rooted (name path : String)
  /-- A disabled command is left out. -/
  | disabled (comment : String)
  | commandRead (command : Command)
  /-- A slave at a position in the document. -/
  | slaveRead (slave : Slave) (position : Int)
  /-- A slave without commands is left out of the tables. -/
  | idle (address : UInt16)
  | declaring (declaration : Declaration)
  deriving DecidableEq, Repr

namespace Message

/-- The level of a message. -/
def level : Message → Level
  | .processing _ => .info
  | .writing _ => .info
  | .rooted .. => .debug
  | .disabled _ => .info
  | .commandRead _ => .debug
  | .slaveRead .. => .debug
  | .idle _ => .info
  | .declaring _ => .trace

/-- The part of the program that says a message. -/
def speaker : Message → Speaker
  | .processing _ => .commandLine
  | .writing _ => .commandLine
  | .rooted .. => .builder
  | .disabled _ => .builder
  | .commandRead _ => .builder
  | .slaveRead .. => .builder
  | .idle _ => .emitter
  | .declaring _ => .emitter

/-- The text of the message about a command. -/
def commandText (command : Command) : String :=
  "CoE command " ++ Text.hexWord 4 command.index.toNat ++ s!":{command.subIndex.toNat}" ++
    s!" ccs {command.specifier.toNat} on " ++ String.intercalate "|" command.transitions ++
    s!", {command.data.length} data byte(s)"

/-- The text of the message about a slave. -/
def slaveText (slave : Slave) (position : Int) : String :=
  s!"Slave {slave.address.toNat} (position {position})" ++
    ": vendor " ++ Text.hexWord 8 slave.vendor.toNat ++
    ", product " ++ Text.hexWord 8 slave.product.toNat ++
    ", revision " ++ Text.hexWord 8 slave.revision.toNat ++
    s!", {slave.commands.length} CoE command(s)"

/-- The text of the message about a declaration. -/
def declarationText : Declaration → String
  | .root count => "Emitting " ++ rootName ++ s!" with {count} slave(s)"
  | declaration => "Emitting " ++ declaration.name ++ s!"[{declaration.length}]"

/-- The text of a message. -/
def text : Message → String
  | .processing file => "Processing file: " ++ file
  | .writing file => "Writing file: " ++ file
  | .rooted name path => "Document root is <" ++ name ++ ">, reading " ++ path
  | .disabled comment => "Skipping disabled CoE init command '" ++ Text.trim comment ++ "'"
  | .commandRead command => commandText command
  | .slaveRead slave position => slaveText slave position
  | .idle address =>
      s!"Slave {address.toNat} has no CoE init commands; leaving it out of the slave table"
  | .declaring declaration => declarationText declaration

/-- A message is reported up to a level of detail; without a level nothing is. -/
def isReported (limit : Option Level) (message : Message) : Bool :=
  limit.any (message.level.rank ≤ ·.rank)

/-- A text all of whose lines but the first are indented by four columns. -/
def indented (text : String) : String :=
  String.ofList (text.toList.flatMap fun character =>
    if character = '\n' then "\n    ".toList else [character])

/-- The lines in which a message is reported: one, unless its text has several. -/
def line (message : Message) : String :=
  "[" ++ message.level.column ++ " " ++ message.speaker.name ++ "] " ++ indented message.text ++
    "\n"

end Message

end BusTables
