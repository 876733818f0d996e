import BusTables.Xml.Reader.State

/-!
# Reading tags

The end of a start tag is an event; an empty-element tag is two.  The qualifiers of the element and
of its attributes have to be bound by then, since the tag may declare them itself, and the names of
the attributes have to differ.  The name of an end tag has to be that of the innermost element.
-/

namespace BusTables.Xml

namespace Reader

/-- The start event of an element. -/
def startEvent (tag : Tag) : Event :=
  .start (String.ofList tag.name.base)
    (tag.attributes.reverse.map fun (name, value) =>
      (String.ofList name.base, String.ofList value))

/--
The names of the attributes differ, in the order in which they are written.  Only the ninth may be
one of those before it: neither the names without the ninth nor those from the ninth on hold a name
twice.
-/
def areAttributeNames (names : List Name) : Bool :=
  Name.areDistinct (names.eraseIdx 8) && Name.areDistinct (names.drop 8)

/-- The end of a start tag, which may be an empty-element tag. -/
def closeTag (reader : Reader) (isEmpty : Bool) (tag : Tag) : Option Reader :=
  let names := tag.attributes.reverse.map (·.1)
  if areAttributeNames names &&
      (tag.name :: names).all fun name => reader.binds tag.qualifiers name.qualifier then
    let reader := (reader.emit (startEvent tag)).enter .between
    if isEmpty then some (reader.emit .finish)
    else some { reader with opened := ⟨tag.name, tag.qualifiers⟩ :: reader.opened }
  else none

/-- The end of an end tag. -/
def closeElement (reader : Reader) (name : Name) : Option Reader :=
  match reader.opened with
  | innermost :: outer =>
      if name = innermost.name then
        some (({ reader with opened := outer }.emit .finish).enter .between)
      else none
  | [] => none

/-- The name read so far, if it may be that of an element. -/
def elementName? (read : Spelling) : Option Name :=
  (Name.ofCharacters? read.characters).filter (·.isElementName)

/-- The tag whose name has been read. -/
def tag? (read : Spelling) : Option Tag := (elementName? read).map Tag.ofName

/-- A token in the name of a start tag. -/
def tagNameToken (reader : Reader) (read : Spelling) (token : Token) : Option Reader :=
  match token with
  | .tagClose => (tag? read).bind (reader.closeTag false)
  | .emptyTagClose => (tag? read).bind (reader.closeTag true)
  | .character character =>
      if isSpace character then (tag? read).map fun tag => reader.enter (.inTag tag)
      else (read.extend? character).map fun read => reader.enter (.tagName read)
  | _ => none

/-- A token in a start tag, behind a blank. -/
def inTagToken (reader : Reader) (tag : Tag) (token : Token) : Option Reader :=
  match token with
  | .tagClose => reader.closeTag false tag
  | .emptyTagClose => reader.closeTag true tag
  | .character character =>
      if isSpace character then some reader
      else
        (Spelling.empty.extend? character).map fun read => reader.enter (.attributeName tag read)
  | _ => none

/-- The target of the value of an attribute whose name has been read. -/
def attribute? (tag : Tag) (read : Spelling) : Option Target :=
  if tag.room = 0 then none else (Name.ofCharacters? read.characters).map (.attribute tag)

/-- A token in the name of an attribute. -/
def attributeNameToken (reader : Reader) (tag : Tag) (read : Spelling) (token : Token) :
    Option Reader :=
  match token with
  | .equals => (attribute? tag read).map fun target => reader.enter (.valueStart target)
  | .character character =>
      if isSpace character then
        (attribute? tag read).map fun target => reader.enter (.equals target)
      else (read.extend? character).map fun read => reader.enter (.attributeName tag read)
  | _ => none

/-- A token in a start tag, behind a value. -/
def afterValueToken (reader : Reader) (tag : Tag) (token : Token) : Option Reader :=
  match token with
  | .tagClose => reader.closeTag false tag
  | .emptyTagClose => reader.closeTag true tag
  | .character character => if isSpace character then some (reader.enter (.inTag tag)) else none
  | _ => none

/-- A token in the name of an end tag. -/
def endNameToken (reader : Reader) (read : Spelling) (token : Token) : Option Reader :=
  match token with
  | .tagClose => (elementName? read).bind reader.closeElement
  | .character character =>
      if isSpace character then
        (elementName? read).map fun name => reader.enter (.afterEndName name)
      else (read.extend? character).map fun read => reader.enter (.endName read)
  | _ => none

/-- A token in an end tag, behind its name. -/
def afterEndNameToken (reader : Reader) (name : Name) (token : Token) : Option Reader :=
  match token with
  | .tagClose => reader.closeElement name
  | .character character => if isSpace character then some reader else none
  | _ => none

end Reader

end BusTables.Xml
