import BusTables.Xml.Reader.State

/-!
# Reading values and references

A value belongs to an attribute or to a part of the declaration; the version that is declared counts
from the end of its value on.  A reference occurs in a value or in text.  A declared entity is
inserted into a value as it is; in text it has to be read itself.
-/

namespace BusTables.Xml

namespace Declared

/-- A declaration none of whose parts has been read. -/
def empty : Declared := ⟨none, none, false⟩

/-- The declaration with one more part; `none` if the part is unknown or out of order. -/
def add? (declared : Declared) (name value : List Char) : Option Declared :=
  if name = "version".toList then
    if declared.version = none then
      (Version.ofName? value).map fun version => { declared with version := some version }
    else none
  else if name = "encoding".toList then
    if declared.version ≠ none ∧ declared.encoding = none ∧ declared.standalone = false then
      some { declared with encoding := some value }
    else none
  else if name = "standalone".toList then
    if declared.version ≠ none ∧ declared.standalone = false ∧
        ["yes".toList, "no".toList].contains value then
      some { declared with standalone := true }
    else none
  else none

end Declared

namespace Reader

/-- A token between a name and its value. -/
def equalsToken (reader : Reader) (target : Target) (token : Token) : Option Reader :=
  match token with
  | .equals => some (reader.enter (.valueStart target))
  | .character character => if isSpace character then some reader else none
  | _ => none

/-- A token before the quote that starts a value. -/
def valueStartToken (reader : Reader) (target : Target) (token : Token) : Option Reader :=
  match token with
  | .quote quote => some (reader.enter (.value target quote []))
  | .character character => if isSpace character then some reader else none
  | _ => none

/-- A value is complete. -/
def closeValue (reader : Reader) (target : Target) (value : List Char) : Option Reader :=
  match target with
  | .attribute tag name =>
      match name.role? value with
      | some .plain =>
          some (reader.enter (.afterValue (tag.withAttribute name value)))
      | some (.qualifier qualifier) =>
          some (reader.enter (.afterValue { tag with qualifiers := qualifier :: tag.qualifiers }))
      | some .default => some (reader.enter (.afterValue tag))
      | none => none
  | .declared declared name =>
      (declared.add? name value).map fun declared =>
        { reader.enter (.afterDeclared declared) with
          version := declared.version.getD reader.version }

/-- A token in a value, to which the opening of a markup declaration adds nothing. -/
def valueToken (reader : Reader) (target : Target) (quote : Quote) (read : List Char)
    (token : Token) : Option Reader :=
  match token with
  | .quote found =>
      if found = quote then reader.closeValue target read.reverse
      else some (reader.enter (.value target quote (found.character :: read)))
  | .referenceOpen => some (reader.enter (.reference (.value target quote read) []))
  | .tagOpen => none
  | .instructionOpen => none
  | .declarationOpen => some reader
  | .character character =>
      if reader.version.admitsBare character then
        some (reader.enter (.value target quote (character :: read)))
      else none
  | token => some (reader.enter (.value target quote (token.spelling.reverse ++ read)))

/-- A reference is replaced by what it stands for. -/
def resolve (reader : Reader) (place : Place) (referent : Referent) : Reader :=
  match place, referent with
  | .text, .character character => (reader.collect [character]).enter .between
  | .text, .entity text => { reader.enter .between with request := some (.expand text) }
  | .value target quote read, .character character =>
      reader.enter (.value target quote (character :: read))
  | .value target quote read, .entity text =>
      reader.enter (.value target quote (text.reverse ++ read))

/-- The character may follow those of a reference that have been read, however many they are. -/
def continuesReference (read : List Char) (character : Char) : Bool :=
  if read.isEmpty then isNameStart character || character == '#' else isNameCharacter character

/-- A token in a reference. -/
def referenceToken (reader : Reader) (place : Place) (read : List Char) (token : Token) :
    Option Reader :=
  match token with
  | .referenceClose =>
      (Referent.ofName? reader.version reader.entities read.reverse).map (reader.resolve place)
  | .character character =>
      if continuesReference read character then
        some (reader.enter (.reference place (character :: read)))
      else none
  | _ => none

end Reader

end BusTables.Xml
