import BusTables.Xml.Doctype
import BusTables.Xml.Event

/-!
# States of a reader

A reader is always in one of the modes that are listed here.  Beside the mode it keeps the version
of the language, the declared entities, the elements whose end is due, the text and the events
collected so far, and what it asks of the one who feeds it.
-/

namespace BusTables.Xml

/-- An element whose start tag is being read; lists are in reverse. -/
structure Tag where
  name : Name
  attributes : List (Name × List Char)
  qualifiers : List (List Char)
  /-- How many more attributes the tag may have. -/
  room : Nat
  deriving DecidableEq, Repr

namespace Tag

/-- How many attributes a tag may have. -/
def capacity : Nat := 65536

/-- The start tag of an element, before its first attribute. -/
def ofName (name : Name) : Tag := ⟨name, [], [], capacity⟩

/-- The tag with one more attribute. -/
def withAttribute (tag : Tag) (name : Name) (value : List Char) : Tag :=
  { tag with attributes := (name, value) :: tag.attributes, room := tag.room - 1 }

end Tag

/-- An element whose end tag is due, and the qualifiers that it declares. -/
structure Opened where
  name : Name
  qualifiers : List (List Char)
  deriving DecidableEq, Repr

/-- The parts of a declaration of the language's version that have been read. -/
structure Declared where
  version : Option Version
  encoding : Option (List Char)
  standalone : Bool
  deriving DecidableEq, Repr

/-- What a quoted value belongs to. -/
inductive Target where
  | attribute (tag : Tag) (name : Name)
  | declared (declared : Declared) (name : List Char)
  deriving DecidableEq, Repr

/-- Where a reference occurs. -/
inductive Place where
  | text
  | value (target : Target) (quote : Quote) (read : List Char)
  deriving DecidableEq, Repr

/-- What the reader is in the midst of; characters read so far are in reverse. -/
inductive Mode where
  /-- Between markup. -/
  | between
  /-- In the name of a start tag. -/
  | tagName (read : Spelling)
  /-- In a start tag, behind a blank. -/
  | inTag (tag : Tag)
  /-- In the name of an attribute. -/
  | attributeName (tag : Tag) (read : Spelling)
  /-- Before the value of an attribute or of a part of the declaration. -/
  | equals (target : Target)
  /-- Before the quote that starts a value. -/
  | valueStart (target : Target)
  /-- In a value. -/
  | value (target : Target) (quote : Quote) (read : List Char)
  /-- In a start tag, behind a value. -/
  | afterValue (tag : Tag)
  /-- In the name of an end tag. -/
  | endName (read : Spelling)
  /-- In an end tag, behind its name. -/
  | afterEndName (name : Name)
  /-- In a comment. -/
  | comment
  /-- In a section of literal text. -/
  | literal
  /-- In the name of an instruction, which may be the declaration if nothing came before. -/
  | instructionName (first : Bool) (read : Spelling)
  /-- In the data of an instruction. -/
  | instruction
  /-- In the declaration, behind a blank. -/
  | inDeclaration (declared : Declared)
  /-- In the name of a part of the declaration, behind its first letter. -/
  | declaredName (declared : Declared) (letter : Char) (read : Spelling)
  /-- In the declaration, behind a value. -/
  | afterDeclared (declared : Declared)
  /-- In a document type. -/
  | doctype (place : Doctype)
  /-- In a reference. -/
  | reference (place : Place) (read : List Char)
  deriving DecidableEq, Repr

/-- How far a document has come. -/
inductive Progress where
  | nothing
  | something
  | doctype
  | element
  deriving DecidableEq, Repr

/-- What the reader asks of the one who feeds it. -/
inductive Request where
  /-- Read a text before what is left of the document. -/
  | expand (text : List Char)
  /-- Read the bytes that follow as a declaration says. -/
  | encoding (name : List Char)
  deriving DecidableEq, Repr

/-- A reader in the midst of a document; text and events collected so far are in reverse. -/
structure Reader where
  version : Version
  progress : Progress
  entities : Entities
  opened : List Opened
  text : List Char
  events : List Event
  mode : Mode
  request : Option Request
  deriving DecidableEq, Repr

namespace Reader

/-- A reader at the start of a document. -/
def initial : Reader := ⟨.first, .nothing, [], [], [], [], .between, none⟩

/-- The reader stands outside of all elements. -/
def isOutside (reader : Reader) : Bool := reader.opened.isEmpty

/-- The reader in another mode. -/
def enter (reader : Reader) (mode : Mode) : Reader := { reader with mode }

/-- Something has been met. -/
def started (reader : Reader) : Reader :=
  match reader.progress with
  | .nothing => { reader with progress := .something }
  | _ => reader

/-- The reader with more text, given in reverse. -/
def collect (reader : Reader) (read : List Char) : Reader :=
  { reader with text := read ++ reader.text }

/-- The reader with one more event. -/
def emit (reader : Reader) (event : Event) : Reader :=
  { reader with events := event :: reader.events }

/-- The text collected so far becomes an event. -/
def flush (reader : Reader) : Reader :=
  if reader.text.isEmpty then reader
  else { reader.emit (.characters (String.ofList reader.text.reverse)) with text := [] }

/-- A qualifier is declared by the element, by one around it, or in every document. -/
def binds (reader : Reader) (qualifiers : List (List Char)) : Option (List Char) → Bool
  | none => true
  | some qualifier =>
      qualifier == Name.xml || qualifier == Name.xmlns || qualifiers.contains qualifier ||
        reader.opened.any (·.qualifiers.contains qualifier)

/-- The document may end here. -/
def isComplete (reader : Reader) : Bool :=
  reader.isOutside && reader.progress == .element && reader.mode == .between

end Reader

end BusTables.Xml
