/-!
# Events

A document is read as a sequence of events.  Names are given by their base, without qualifier,
and namespace declarations are not among the attributes.
-/

namespace BusTables.Xml

/-- What the reader of a document meets. -/
inductive Event where
  | start (name : String) (attributes : List (String × String))
  | characters (text : String)
  | finish
  | other
  deriving DecidableEq, Repr

end BusTables.Xml
