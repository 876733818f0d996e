import BusTables.Xml.Name
import BusTables.Xml.Reference
import BusTables.Xml.Spelling
import BusTables.Xml.Token

/-!
# Document types

Of a document type only the declared entities matter.  Everything else is skipped, with as much
care as is needed to find its end: quoted parts and comments hide what they contain, and a
markup declaration ends where its own delimiter does.
-/

namespace BusTables.Xml

/-- Where a reader stands in a document type. -/
inductive Doctype where
  /-- Between declarations. -/
  | between
  /-- Inside a quoted part. -/
  | quoted (quote : Quote)
  /-- Inside a comment. -/
  | comment
  /-- In the keyword of a declaration, read so far in reverse. -/
  | keyword (read : List Char)
  /-- Inside a declaration that is skipped. -/
  | skipped
  /-- Before the name of an entity. -/
  | entityStart
  /-- Before the name of a parameter entity. -/
  | parameterStart
  /-- In the name of an entity. -/
  | entityName (read : Spelling)
  /-- Before the text of an entity. -/
  | textStart (name : List Char)
  /-- In the text of an entity, read so far in reverse. -/
  | text (name : List Char) (quote : Quote) (read : List Char)
  /-- In the text of an entity, behind `&`. -/
  | textReference (name : List Char) (quote : Quote) (read : List Char)
  /-- In the text of an entity, inside a numeric reference. -/
  | textNumber (name : List Char) (quote : Quote) (read digits : List Char)
  /-- In the text of an entity, inside a reference to a parameter entity. -/
  | textParameter (name : List Char) (quote : Quote) (read reference : List Char)
  /-- Inside a reference to a parameter entity, between declarations. -/
  | parameter (read : List Char)
  deriving DecidableEq, Repr

namespace Doctype

/-- What a token leads to. -/
inductive Step where
  /-- The document type goes on. -/
  | goOn (place : Doctype)
  /-- The document type is over. -/
  | leave
  /-- An entity is declared. -/
  | declare (name text : List Char)
  /-- A text is to be read in place of a reference. -/
  | expand (text : List Char)
  deriving DecidableEq, Repr

/-- A declaration by its keyword. -/
def ofKeyword? (keyword : List Char) : Option Doctype :=
  if keyword = "ENTITY".toList then some .entityStart
  else if ["NOTATION", "ELEMENT", "ATTLIST"].contains (String.ofList keyword) then some .skipped
  else none

/-- A parameter entity is declared under its name behind this mark. -/
def parameterMark : Char := '%'

/-- A token between declarations. -/
def stepBetween : Token → Option Step
  | .tagClose => some .leave
  | .declarationOpen => some (.goOn (.keyword []))
  | .character '%' => some (.goOn (.parameter [parameterMark]))
  | .commentOpen => some (.goOn .comment)
  | .quote quote => some (.goOn (.quoted quote))
  | .sectionOpen => none
  | .sectionClose => none
  | _ => some (.goOn .between)

/-- A token in the text of an entity. -/
def stepText (version : Version) (name : List Char) (quote : Quote) (read : List Char)
    (token : Token) : Option Step :=
  match token with
  | .quote found =>
      if found = quote then some (.declare name read.reverse)
      else some (.goOn (.text name quote (found.character :: read)))
  | .referenceOpen => some (.goOn (.textReference name quote read))
  | .character '&' => some (.goOn (.textReference name quote read))
  | .character '%' => some (.goOn (.textParameter name quote read [parameterMark]))
  | .character character =>
      if version.admits character then some (.goOn (.text name quote (character :: read)))
      else none
  | _ => none

/-- A token in the text of an entity behind `&`: only numeric references are resolved there. -/
def stepTextReference (version : Version) (name : List Char) (quote : Quote) (read : List Char)
    (token : Token) : Option Step :=
  match token with
  | .character '#' => some (.goOn (.textNumber name quote read []))
  | .character character =>
      if version.admits character then some (.goOn (.text name quote (character :: '&' :: read)))
      else none
  | _ => none

/-- The token is a semicolon, however it was scanned. -/
def isSemicolon (token : Token) : Bool :=
  token == .referenceClose || token == .character ';'

/-- A token at some place of a document type. -/
def step (version : Version) (entities : Entities) (place : Doctype) (token : Token) :
    Option Step :=
  match place with
  | .between => stepBetween token
  | .quoted quote =>
      if token = .quote quote then some (.goOn .between) else some (.goOn (.quoted quote))
  | .comment => if token = .commentClose then some (.goOn .between) else some (.goOn .comment)
  | .keyword read =>
      match token with
      | .character character =>
          if 'A' ≤ character ∧ character ≤ 'Z' then some (.goOn (.keyword (character :: read)))
          else if isSpace character then (ofKeyword? read.reverse).map .goOn
          else none
      | _ => none
  | .skipped => if token = .tagClose then some (.goOn .between) else some (.goOn .skipped)
  | .entityStart =>
      match token with
      | .character character =>
          if isSpace character then some (.goOn .entityStart)
          else if character = parameterMark then some (.goOn .parameterStart)
          else
            (Spelling.empty.extend? character).map fun read => .goOn (.entityName read)
      | _ => none
  | .parameterStart =>
      match token with
      | .character character =>
          if isSpace character then some (.goOn .parameterStart)
          else if isNameStart character then
            some (.goOn (.entityName ((Spelling.empty.add parameterMark).add character)))
          else none
      | _ => none
  | .entityName read =>
      match token with
      | .character character =>
          if isSpace character then some (.goOn (.textStart read.characters))
          else (read.extend? character).map fun read => .goOn (.entityName read)
      | _ => none
  | .textStart name =>
      match token with
      | .character character =>
          if isSpace character then some (.goOn (.textStart name))
          else if character = 'S' ∨ character = 'P' then some (.declare name [])
          else none
      | .quote quote => some (.goOn (.text name quote []))
      | _ => none
  | .text name quote read => stepText version name quote read token
  | .textReference name quote read => stepTextReference version name quote read token
  | .textNumber name quote read digits =>
      if isSemicolon token then
        (Reference.numeric? version digits.reverse).map fun character =>
          .goOn (.text name quote (character :: read))
      else
        match token with
        | .character character =>
            if version.admits character then
              some (.goOn (.textNumber name quote read (character :: digits)))
            else none
        | _ => none
  | .textParameter name quote read reference =>
      if isSemicolon token then
        (entities.lookup reference.reverse).map fun text =>
          .goOn (.text name quote (text.reverse ++ read))
      else
        match token with
        | .character character =>
            if isNameCharacter character then
              some (.goOn (.textParameter name quote read (character :: reference)))
            else none
        | _ => none
  | .parameter read =>
      if isSemicolon token then (entities.lookup read.reverse).map .expand
      else
        match token with
        | .character character =>
            if isNameCharacter character then some (.goOn (.parameter (character :: read)))
            else none
        | _ => none

end Doctype

end BusTables.Xml
