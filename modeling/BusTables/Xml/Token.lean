import BusTables.Xml.Character

/-!
# Tokens of markup

A scanner cuts the characters of a document into tokens.  It keeps only what it needs to tell
where a delimiter of several characters ends, and which delimiters count inside comments,
sections of literal text, instructions, document types and markup declarations.  Feeding it one
character gives the tokens that the character completes.

A scanner knows nothing of what the tokens are taken for: where `<!DOCTYPE` stands in a quoted
value, the scanner is in a document type all the same, up to the next `>` that it meets there.
-/

namespace BusTables.Xml

/-- The two quotes. -/
inductive Quote where
  | single
  | double
  deriving DecidableEq, Repr

/-- The character of a quote. -/
def Quote.character : Quote → Char
  | .single => '\''
  | .double => '"'

/-- A delimiter, or a character that is none. -/
inductive Token where
  | character (found : Char)
  | tagOpen
  | endTagOpen
  | tagClose
  | emptyTagClose
  | equals
  | quote (mark : Quote)
  | referenceOpen
  | referenceClose
  | commentOpen
  | commentClose
  | sectionOpen
  | sectionClose
  | instructionOpen
  | instructionClose
  | doctypeOpen
  | declarationOpen
  deriving DecidableEq, Repr

/-- The characters of a token. -/
def Token.spelling : Token → List Char
  | .character found => [found]
  | .tagOpen => ['<']
  | .endTagOpen => ['<', '/']
  | .tagClose => ['>']
  | .emptyTagClose => ['/', '>']
  | .equals => ['=']
  | .quote mark => [mark.character]
  | .referenceOpen => ['&']
  | .referenceClose => [';']
  | .commentOpen => "<!--".toList
  | .commentClose => "-->".toList
  | .sectionOpen => "<![CDATA[".toList
  | .sectionClose => "]]>".toList
  | .instructionOpen => ['<', '?']
  | .instructionClose => ['?', '>']
  | .doctypeOpen => "<!DOCTYPE".toList
  | .declarationOpen => ['<', '!']

/-- What stands between delimiters: the text of a document or that of a document type. -/
inductive Ground where
  | text
  | doctype
  deriving DecidableEq, Repr

/-- What surrounds the next character. -/
inductive Context where
  /-- Between delimiters. -/
  | ground (ground : Ground)
  /-- Behind `<`. -/
  | angle
  /-- Behind `<!`. -/
  | exclamation
  /-- Behind `<!-`. -/
  | exclamationDash
  /-- Within a delimiter that ends with the given characters. -/
  | delimiter (token : Token) (next : Char) (later : List Char)
  /-- Behind `/`. -/
  | slash
  /-- Behind `]`. -/
  | bracket
  /-- Behind `]]`. -/
  | brackets
  /-- Inside a comment. -/
  | comment
  /-- Inside a comment, behind `-`. -/
  | commentDash
  /-- Inside a comment, behind `--`. -/
  | commentDashes
  /-- Inside a section of literal text. -/
  | literal
  /-- Inside a section, behind `]`. -/
  | literalBracket
  /-- Inside a section, behind `]]`. -/
  | literalBrackets
  /-- Inside an instruction. -/
  | instruction
  /-- Inside an instruction, behind `?`. -/
  | instructionMark
  /-- Inside a markup declaration. -/
  | declaration
  /-- Inside a quoted part of a markup declaration. -/
  | quoted (quote : Quote)
  deriving DecidableEq, Repr

/-- A scanner: where it stands, and the ground that it comes back to behind a delimiter. -/
structure Scanner where
  home : Ground
  context : Context
  deriving DecidableEq, Repr

/-- A character by itself, where it may only be a quote or delimit a reference. -/
def Token.ofMark : Char → Token
  | '"' => .quote .double
  | '\'' => .quote .single
  | '&' => .referenceOpen
  | ';' => .referenceClose
  | found => .character found

/-- A character by itself, where it may also delimit a tag or stand between a name and a value. -/
def Token.ofSingle : Char → Token
  | '<' => .tagOpen
  | '>' => .tagClose
  | '=' => .equals
  | found => ofMark found

namespace Scanner

/-- What a character leads to: where the scanner stands then, and the tokens that are complete. -/
abbrev Fed := Scanner × List Token

/-- A scanner at the start of a document. -/
def initial : Scanner := ⟨.text, .ground .text⟩

/-- The scanner in another context. -/
def enter (scanner : Scanner) (context : Context) (tokens : List Token) : Fed :=
  ({ scanner with context }, tokens)

/-- The scanner behind a delimiter. -/
def goHome (scanner : Scanner) (tokens : List Token) : Fed :=
  scanner.enter (.ground scanner.home) tokens

/-- Tokens that come before those of the character just fed. -/
def preceded (tokens : List Token) (fed : Fed) : Fed := (fed.1, tokens ++ fed.2)

/-- A character of the text of a document. -/
def feedText (scanner : Scanner) : Char → Fed
  | '<' => scanner.enter .angle []
  | '/' => scanner.enter .slash []
  | ']' => scanner.enter .bracket []
  | character => scanner.enter (.ground .text) [.ofSingle character]

/-- A character of the text of a document type, which `>` ends. -/
def feedDoctype (scanner : Scanner) : Char → Fed
  | '<' => scanner.enter .angle []
  | '>' => ({ scanner with home := .text }).enter (.ground .text) [.tagClose]
  | character => scanner.enter (.ground .doctype) [.ofMark character]

/-- A character between delimiters. -/
def feedGround (scanner : Scanner) : Ground → Char → Fed
  | .text => scanner.feedText
  | .doctype => scanner.feedDoctype

/-- A character inside an instruction. -/
def feedInstruction (scanner : Scanner) : Char → Fed
  | '?' => scanner.enter .instructionMark []
  | character => scanner.enter .instruction [.ofSingle character]

/-- The character behind `<`. -/
def feedAngle (scanner : Scanner) (character : Char) : Option Fed :=
  match character with
  | '?' => some (scanner.enter .instruction [.instructionOpen])
  | '/' => some (scanner.goHome [.endTagOpen])
  | '!' => some (scanner.enter .exclamation [])
  | _ =>
      if isSpace character || isNameCharacter character then
        some (scanner.goHome [.tagOpen, .character character])
      else none

/-- The character behind `<!`.  Markup declarations are known in a document type only. -/
def feedExclamation (scanner : Scanner) (character : Char) : Option Fed :=
  match character with
  | '-' => some (scanner.enter .exclamationDash [])
  | '[' => some (scanner.enter (.delimiter .sectionOpen 'C' "DATA[".toList) [])
  | 'D' => some (scanner.enter (.delimiter .doctypeOpen 'O' "CTYPE".toList) [])
  | _ =>
      if scanner.home = .doctype ∧ (character = 'E' ∨ character = 'A' ∨ character = 'N') then
        some (scanner.enter .declaration [.declarationOpen, .character character])
      else none

/-- The scanner behind a delimiter of several characters that are all known beforehand. -/
def behind (scanner : Scanner) (token : Token) : Fed :=
  match token with
  | .sectionOpen => scanner.enter .literal [token]
  | .doctypeOpen => ({ scanner with home := .doctype }).goHome [token]
  | _ => scanner.goHome [token]

/-- A character inside a markup declaration, where no other markup may start. -/
def feedDeclaration (scanner : Scanner) (character : Char) : Option Fed :=
  match character with
  | '<' => none
  | '>' => some (scanner.goHome [.tagClose])
  | '"' => some (scanner.enter (.quoted .double) [.quote .double])
  | '\'' => some (scanner.enter (.quoted .single) [.quote .single])
  | _ => some (scanner.enter .declaration [.ofMark character])

/-- The scanner behind one more character, and the tokens that the character completes. -/
def feed (scanner : Scanner) (character : Char) : Option Fed :=
  match scanner.context with
  | .ground ground => some (scanner.feedGround ground character)
  | .angle => scanner.feedAngle character
  | .exclamation => scanner.feedExclamation character
  | .exclamationDash =>
      if character = '-' then some (scanner.enter .comment [.commentOpen]) else none
  | .delimiter token next later =>
      if character = next then
        match later with
        | [] => some (scanner.behind token)
        | next :: later => some (scanner.enter (.delimiter token next later) [])
      else none
  | .slash =>
      if character = '>' then some (scanner.goHome [.emptyTagClose])
      else some (preceded [.character '/'] (scanner.feedGround scanner.home character))
  | .bracket =>
      if character = ']' then some (scanner.enter .brackets [])
      else some (preceded [.character ']'] (scanner.feedText character))
  | .brackets =>
      if character = '>' then some (scanner.goHome [.sectionClose])
      else if character = ']' then some (scanner.enter .brackets [.character ']'])
      else some (preceded [.character ']', .character ']'] (scanner.feedText character))
  | .comment =>
      if character = '-' then some (scanner.enter .commentDash [])
      else some (scanner.enter .comment [.character character])
  | .commentDash =>
      if character = '-' then some (scanner.enter .commentDashes [])
      else some (scanner.enter .comment [.character '-', .character character])
  | .commentDashes => if character = '>' then some (scanner.goHome [.commentClose]) else none
  | .literal =>
      if character = ']' then some (scanner.enter .literalBracket [])
      else some (scanner.enter .literal [.character character])
  | .literalBracket =>
      if character = ']' then some (scanner.enter .literalBrackets [])
      else some (scanner.enter .literal [.character ']', .character character])
  | .literalBrackets =>
      if character = '>' then some (scanner.enter (.ground .text) [.sectionClose])
      else if character = ']' then some (scanner.enter .literalBrackets [.character ']'])
      else
        some (scanner.enter .literal [.character ']', .character ']', .character character])
  | .instruction => some (scanner.feedInstruction character)
  | .instructionMark =>
      if character = '>' then some (scanner.goHome [.instructionClose])
      else some (preceded [.character '?'] (scanner.feedInstruction character))
  | .declaration => scanner.feedDeclaration character
  | .quoted quote =>
      if character = quote.character then some (scanner.enter .declaration [.quote quote])
      else some (scanner.enter (.quoted quote) [.character character])

/-- Behind all delimiters: a document may end there. -/
def isAtRest (scanner : Scanner) : Bool := scanner.context == .ground .text

end Scanner

end BusTables.Xml
