import BusTables.Element
import BusTables.Numeral

/-!
# Paths

A path is a sequence of names with slashes between them.  It leads from an element to its
descendants whose chain of names it is; empty names and single dots lead no further.  A look-up
may demand that at least or at most so many elements be found, and the content of the element
found may be read as a number or as text.
-/

namespace BusTables

/-- The integer that a literal denotes; a fault names the element that holds it by its path. -/
def Numeral.read (literal path : String) : Except Failure Int :=
  match Numeral.read? literal with
  | some value => .ok value
  | none => .error (.value (.integer literal path))

namespace Element

/-- The names along a path. -/
def steps (path : String) : List String :=
  ((path.toList.splitOn '/').filter fun name => !(name.isEmpty || name == ['.'])).map
    String.ofList

/-- The children with a name. -/
def childrenNamed (name : String) (element : Element) : List Element :=
  element.children.filter (·.name == name)

/-- The elements to which names lead from the elements given, in document order. -/
def descend : List String → List Element → List Element
  | [], found => found
  | name :: later, found => descend later (found.flatMap (childrenNamed name))

/-- Names in two parts are followed one part after the other. -/
theorem descend_append_names (first later : List String) (found : List Element) :
    descend (first ++ later) found = descend later (descend first found) := by
  induction first generalizing found with
  | nil => rfl
  | cons name rest ih => simp [descend, ih]

/-- The elements to which a path leads, in document order. -/
def descendants (element : Element) (path : String) : List Element :=
  descend (steps path) [element]

/--
The elements to which a path leads, if their number lies within the bounds.  Too many are
reported before too few.
-/
def find (element : Element) (path : String) (least most : Option Nat) :
    Except Failure (List Element) :=
  let found := element.descendants path
  if most.any (· < found.length) then .error (.schema (.tooMany path))
  else if least.any (found.length < ·) then .error (.schema (.tooFew path))
  else .ok found

/-- The only element to which a path leads. -/
def findOne (element : Element) (path : String) : Except Failure Element :=
  match element.descendants path with
  | [] => .error (.schema (.tooFew path))
  | [found] => .ok found
  | _ => .error (.schema (.tooMany path))

/-- The only element to which a path leads, if there is any. -/
def findOptional (element : Element) (path : String) : Except Failure (Option Element) :=
  match element.descendants path with
  | [] => .ok none
  | [found] => .ok (some found)
  | _ => .error (.schema (.tooMany path))

/-- The integer at a path. -/
def readInt (element : Element) (path : String) : Except Failure Int := do
  let found ← element.findOne path
  Numeral.read found.content path

/-- The integer at a path, or a default if the path leads nowhere. -/
def readOptionalInt (element : Element) (path : String) (default : Int) :
    Except Failure Int := do
  match ← element.findOptional path with
  | some found => Numeral.read found.content path
  | none => return default

/-- The text at a path. -/
def readText (element : Element) (path : String) : Except Failure String := do
  let found ← element.findOne path
  return found.content

/-- The text at a path, or a default if the path leads nowhere. -/
def readOptionalText (element : Element) (path default : String) : Except Failure String := do
  match ← element.findOptional path with
  | some found => return found.content
  | none => return default

end Element

end BusTables
