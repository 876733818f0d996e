import BusTables.Xml.Reader.Values

/-!
# Reading instructions, the declaration and document types

An instruction is skipped, but its characters have to be admitted.  One that is called `xml` is the
declaration; it may only come first.  The first letter of a part of the declaration tells the parts
apart, and the rest is read as a name, whose qualifier does not matter.  A document type adds
entities.
-/

namespace BusTables.Xml

namespace Reader

/-- The name of an instruction is that of the declaration, whatever the case. -/
def isDeclarationName (name : List Char) : Bool :=
  name.map Char.toLower == Name.xml

/-- A token in the name of an instruction, which a blank may even end at its start. -/
def instructionNameToken (reader : Reader) (first : Bool) (read : Spelling) (token : Token) :
    Option Reader :=
  match token with
  | .instructionClose =>
      if read.isEmpty || isDeclarationName read.characters then none
      else some ((reader.emit .other).enter .between)
  | .character character =>
      if isSpace character then
        if first && read.characters == Name.xml then
          some (reader.enter (.inDeclaration .empty))
        else if isDeclarationName read.characters then none
        else some (reader.enter .instruction)
      else (read.extend? character).map fun read => reader.enter (.instructionName first read)
  | _ => none

/-- A token in the data of an instruction. -/
def instructionToken (reader : Reader) (token : Token) : Option Reader :=
  match token with
  | .instructionClose => some ((reader.emit .other).enter .between)
  | .character character => if reader.version.admits character then some reader else none
  | _ => some reader

/-- The declaration is complete; its encoding is asked for. -/
def closeDeclaration (reader : Reader) (declared : Declared) : Option Reader :=
  if declared.version.isSome then
    some { reader.enter .between with request := declared.encoding.map .encoding }
  else none

/-- A token in the declaration, behind a blank. -/
def inDeclarationToken (reader : Reader) (declared : Declared) (token : Token) : Option Reader :=
  match token with
  | .instructionClose => reader.closeDeclaration declared
  | .character character =>
      if isSpace character then some reader
      else some (reader.enter (.declaredName declared character .empty))
  | _ => none

/-- The target of the value of a part of the declaration whose name has been read. -/
def declared? (declared : Declared) (letter : Char) (read : Spelling) : Option Target :=
  (Name.ofCharacters? read.characters).map fun name => .declared declared (letter :: name.base)

/-- A token in the name of a part of the declaration, behind its first letter. -/
def declaredNameToken (reader : Reader) (declared : Declared) (letter : Char) (read : Spelling)
    (token : Token) : Option Reader :=
  match token with
  | .equals =>
      (declared? declared letter read).map fun target => reader.enter (.valueStart target)
  | .character character =>
      if isSpace character then
        (declared? declared letter read).map fun target => reader.enter (.equals target)
      else
        (read.extend? character).map fun read => reader.enter (.declaredName declared letter read)
  | _ => none

/-- A token in the declaration, behind a value. -/
def afterDeclaredToken (reader : Reader) (declared : Declared) (token : Token) : Option Reader :=
  match token with
  | .instructionClose => reader.closeDeclaration declared
  | .character character =>
      if isSpace character then some (reader.enter (.inDeclaration declared)) else none
  | _ => none

/-- A token in a document type. -/
def doctypeToken (reader : Reader) (place : Doctype) (token : Token) : Option Reader :=
  (place.step reader.version reader.entities token).map fun step =>
    match step with
    | .goOn place => reader.enter (.doctype place)
    | .leave => reader.enter .between
    | .declare name text =>
        { reader.enter (.doctype .skipped) with entities := reader.entities.declare name text }
    | .expand text =>
        { reader.enter (.doctype .between) with request := some (.expand text) }

end Reader

end BusTables.Xml
