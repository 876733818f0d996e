import BusTables.Xml.Event

/-!
# Parsers

A parser turns the bytes of a document into events, one after another.  Where it cannot go on, it
gives a fault in place of an event.  What is done with a document depends on its parser only
through what this gives.
-/

namespace BusTables.Xml

/-- What a parser says of a document that it cannot read on. -/
structure Fault where
  text : String
  deriving DecidableEq, Repr

/-- A reader of documents. -/
structure Parser where
  /-- What stands in a document with some bytes. -/
  read : List UInt8 → List (Except Fault Event)
  /-- What is said of something that holds no bytes. -/
  unreadable : Fault

end BusTables.Xml
