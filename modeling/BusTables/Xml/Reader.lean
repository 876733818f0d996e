import BusTables.Xml.Reader.Content
import BusTables.Xml.Reader.Prolog
import BusTables.Xml.Reader.Tags

/-!
# Reading documents

A reader takes one token at a time and collects the events of the document.  It checks that tags
match, that qualifiers are bound, that references can be resolved and that only admitted
characters occur.  Several root elements may follow one another.
-/

namespace BusTables.Xml

/-- The reader after one more token; `none` if the document is malformed. -/
def Reader.token (reader : Reader) (token : Token) : Option Reader :=
  match reader.mode with
  | .between => reader.betweenToken token
  | .tagName read => reader.tagNameToken read token
  | .inTag tag => reader.inTagToken tag token
  | .attributeName tag read => reader.attributeNameToken tag read token
  | .equals target => reader.equalsToken target token
  | .valueStart target => reader.valueStartToken target token
  | .value target quote read => reader.valueToken target quote read token
  | .afterValue tag => reader.afterValueToken tag token
  | .endName read => reader.endNameToken read token
  | .afterEndName name => reader.afterEndNameToken name token
  | .comment => reader.commentToken token
  | .literal => reader.literalToken token
  | .instructionName first read => reader.instructionNameToken first read token
  | .instruction => reader.instructionToken token
  | .inDeclaration declared => reader.inDeclarationToken declared token
  | .declaredName declared letter read => reader.declaredNameToken declared letter read token
  | .afterDeclared declared => reader.afterDeclaredToken declared token
  | .doctype place => reader.doctypeToken place token
  | .reference place read => reader.referenceToken place read token

end BusTables.Xml
