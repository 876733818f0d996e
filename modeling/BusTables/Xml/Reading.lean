import BusTables.Xml.Encoding
import BusTables.Xml.Parser
import BusTables.Xml.Reader

/-!
# Readings of documents

A reading runs the scanner and the reader over the bytes of a document.  The text of a declared
entity is read in place of the reference to it, which may happen only so often before the next
character of the document itself is due; so every reading ends.  The standard parser makes a reading
of the whole document before it gives the first event.
-/

namespace BusTables.Xml

/-- A scanner and the reader that takes its tokens. -/
structure Reading where
  scanner : Scanner
  reader : Reader
  deriving DecidableEq, Repr

namespace Reading

/-- A reading at the start of a document. -/
def initial : Reading := ⟨.initial, .initial⟩

/-- The reading after one more character. -/
def feed (reading : Reading) (character : Char) : Option Reading := do
  let (scanner, tokens) ← reading.scanner.feed character
  let reader ← tokens.foldlM Reader.token reading.reader
  return ⟨scanner, reader⟩

/-- The request that the last character led to. -/
def request (reading : Reading) : Option Request := reading.reader.request

/-- The reading without its request. -/
def granted (reading : Reading) : Reading :=
  { reading with reader := { reading.reader with request := none } }

/-- The events of a document that ends here. -/
def finish? (reading : Reading) : Option (List Event) :=
  if reading.scanner.isAtRest && reading.reader.isComplete then
    some reading.reader.events.reverse
  else none

/-- How often entities may be expanded between two characters of the document itself. -/
def expansionLimit : Nat := 10

/-- How much expanded text may be left to read where another entity is expanded. -/
def pendingLimit : Nat := 1000000

/--
The events of a document of which `pending` and then `source` are left to read.  `budget` is the
number of expansions that are still allowed before a character of the source is due.
-/
def run (reading : Reading) (budget : Nat) (pending : List Char) (source : Source) :
    Option (List Event) :=
  match pending with
  | character :: pending =>
      match reading.feed character with
      | none => none
      | some reading =>
          match reading.request with
          | none => run reading budget pending source
          | some (.encoding _) => none
          | some (.expand []) => run reading.granted budget pending source
          | some (.expand (first :: later)) =>
              match budget with
              | 0 => none
              | budget + 1 =>
                  if pending.length ≤ pendingLimit then
                    run reading.granted budget (first :: later ++ pending) source
                  else none
  | [] =>
      match _scanned : source.encoding.scan source.bytes with
      | .malformed => none
      | .finished => reading.finish?
      | .character character rest =>
          match reading.feed character with
          | none => none
          | some reading =>
              match reading.request with
              | none => run reading expansionLimit [] ⟨source.encoding, rest⟩
              | some (.encoding name) =>
                  match (EncodingLabel.ofName? name).bind source.encoding.declared? with
                  | some encoding => run reading.granted expansionLimit [] ⟨encoding, rest⟩
                  | none => none
              | some (.expand text) =>
                  run reading.granted (expansionLimit - 1) text ⟨source.encoding, rest⟩
termination_by (source.bytes.length, budget, pending.length)
decreasing_by
  all_goals simp_wf
  all_goals first
    | exact Prod.Lex.left _ _ (Encoding.length_lt_of_scan ‹_›)
    | (apply Prod.Lex.right; apply Prod.Lex.right; simp)
    | (apply Prod.Lex.right; apply Prod.Lex.left; omega)

end Reading

/-- The events of the document with the given bytes; `none` if it is malformed. -/
def events? (content : List UInt8) : Option (List Event) :=
  Reading.initial.run Reading.expansionLimit [] (Source.ofContent content)

/-- What is said of a document that is malformed. -/
def Fault.malformed : Fault := ⟨"malformed document"⟩

/-- What is said where there is no document. -/
def Fault.unreadable : Fault := ⟨"unreadable document"⟩

/-- The parser that makes a reading of the whole document first. -/
def Parser.standard : Parser where
  read content :=
    match events? content with
    | some events => events.map .ok
    | none => [.error .malformed]
  unreadable := .unreadable

end BusTables.Xml
