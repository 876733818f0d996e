import BusTables.Xml.Reader.State

/-!
# Reading between markup

Text is collected until markup interrupts it.  Comments do not interrupt it, and a section of
literal text adds to it.  Outside of all elements there may be blanks only.
-/

namespace BusTables.Xml

namespace Reader

/-- A token in a comment. -/
def commentToken (reader : Reader) (token : Token) : Option Reader :=
  match token with
  | .commentClose => some (reader.enter .between)
  | .character character => if reader.version.admits character then some reader else none
  | _ => some reader

/-- A token in a section of literal text. -/
def literalToken (reader : Reader) (token : Token) : Option Reader :=
  match token with
  | .sectionClose => some (reader.enter .between)
  | .character character =>
      if reader.version.admits character then some (reader.collect [character]) else none
  | token => some (reader.collect token.spelling.reverse)

/-- A token between markup. -/
def betweenToken (reader : Reader) (token : Token) : Option Reader :=
  match token with
  | .character character =>
      if reader.isOutside then if isSpace character then some reader.started else none
      else if reader.version.admitsBare character then some (reader.collect [character])
      else none
  | .tagOpen => some ({ reader.flush with progress := .element }.enter (.tagName .empty))
  | .endTagOpen => if reader.isOutside then none else some (reader.flush.enter (.endName .empty))
  | .commentOpen => some (reader.started.enter .comment)
  | .sectionOpen => if reader.isOutside then none else some (reader.enter .literal)
  | .referenceOpen =>
      if reader.isOutside then none else some (reader.enter (.reference .text []))
  | .instructionOpen =>
      some (reader.flush.started.enter (.instructionName (reader.progress == .nothing) .empty))
  | .doctypeOpen =>
      if reader.progress = .nothing ∨ reader.progress = .something then
        some ({ reader with progress := .doctype }.enter (.doctype .between))
      else none
  | .sectionClose => none
  | .declarationOpen => none
  | token =>
      if reader.isOutside then none else some (reader.collect token.spelling.reverse)

end Reader

end BusTables.Xml
