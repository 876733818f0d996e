import BusTables.Failure
import BusTables.Xml.Event

/-!
# Elements

An element has a name, attributes in document order, the text before its first child, and its
children in document order.  A tree is assembled from the events of a document; of several root
elements the last one counts.
-/

namespace BusTables

/-- A node of a document. -/
structure Element where
  name : String
  attributes : List (String × String)
  text : Option String
  children : List Element
  deriving Repr, BEq

namespace Element

/-- The value of the first attribute with a name. -/
def attribute? (element : Element) (name : String) : Option String :=
  element.attributes.lookup name

/-- The text of an element, empty if there is none. -/
def content (element : Element) : String := element.text.getD ""

/-- An element whose end is due; the children that have ended so far are in reverse. -/
structure Unfinished where
  name : String
  attributes : List (String × String)
  text : Option String
  reversed : List Element
  deriving Repr, BEq

namespace Unfinished

/-- The element at its end. -/
def finish (unfinished : Unfinished) : Element :=
  ⟨unfinished.name, unfinished.attributes, unfinished.text, unfinished.reversed.reverse⟩

/-- The element with more text, unless a child has been met already. -/
def appendText (unfinished : Unfinished) (chunk : String) : Unfinished :=
  if unfinished.reversed.isEmpty then
    { unfinished with text := some (unfinished.text.getD "" ++ chunk) }
  else unfinished

/-- The element with one more child. -/
def appendChild (unfinished : Unfinished) (child : Element) : Unfinished :=
  { unfinished with reversed := child :: unfinished.reversed }

end Unfinished

/-- The elements whose end is due, innermost first, and the last root that has ended. -/
structure Assembly where
  opened : List Unfinished
  root : Option Element
  deriving Repr, BEq

namespace Assembly

/-- The assembly before the first event. -/
def empty : Assembly := ⟨[], none⟩

/-- The assembly after one more event. -/
def advance (assembly : Assembly) : Xml.Event → Except Failure Assembly
  | .start name attributes =>
      .ok { assembly with opened := ⟨name, attributes, none, []⟩ :: assembly.opened }
  | .characters chunk =>
      match assembly.opened with
      | [] => .ok assembly
      | innermost :: outer => .ok { assembly with opened := innermost.appendText chunk :: outer }
  | .finish =>
      match assembly.opened with
      | [] => .error (.schema .unbalanced)
      | [root] => .ok ⟨[], some root.finish⟩
      | child :: parent :: outer =>
          .ok { assembly with opened := parent.appendChild child.finish :: outer }
  | .other => .ok assembly

end Assembly

/-- The root that a sequence of events describes. -/
def ofEvents (events : List Xml.Event) : Except Failure Element := do
  let assembly ← events.foldlM Assembly.advance .empty
  match assembly.root with
  | some root => .ok root
  | none => .error (.schema .rootless)

end Element

end BusTables
