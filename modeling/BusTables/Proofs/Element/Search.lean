import BusTables.Element.Path

/-!
# What paths lead to

A path is followed name by name, from all elements that have been found at once.  The elements
that it leads to are in document order nevertheless: all of them that are below one child come
before those below the next (`descendants_eq`).  The look-ups that succeed say how many there
are.
-/

namespace BusTables.Element

/-- The elements at the end of a chain of names, child by child. -/
def under : List String → Element → List Element
  | [], element => [element]
  | name :: later, element => (element.children.filter (·.name == name)).flatMap (under later)

/-- The number in the only element at the end of a chain. -/
def number? (element : Element) (names : List String) : Option Int :=
  match element.under names with
  | [found] => Numeral.read? found.content
  | _ => none

/-- The text of the only element at the end of a chain, empty if there is no such element. -/
def text? (element : Element) (names : List String) : Option String :=
  match element.under names with
  | [] => some ""
  | [found] => some found.content
  | _ => none

theorem descend_eq_flatMap (names : List String) (found : List Element) :
    descend names found = found.flatMap (under names) := by
  induction names generalizing found with
  | nil =>
      rw [descend]
      exact (List.flatMap_singleton' found).symm
  | cons name later ih =>
      rw [descend, ih, List.flatMap_assoc]
      rfl

theorem descendants_eq {path : String} (names : List String) (along : steps path = names)
    (element : Element) : element.descendants path = element.under names := by
  rw [descendants, along, descend_eq_flatMap, List.flatMap_singleton]

theorem under_of_find {element : Element} {path : String} {names : List String}
    {least most : Option Nat} {found : List Element} (along : steps path = names)
    (ended : element.find path least most = .ok found) : element.under names = found := by
  rw [find, descendants_eq names along] at ended
  split at ended
  · cases ended
  · split at ended
    · cases ended
    · exact Except.ok.inj ended

theorem under_of_findOne {element found : Element} {path : String} {names : List String}
    (along : steps path = names) (one : element.findOne path = .ok found) :
    element.under names = [found] := by
  rw [findOne, descendants_eq names along] at one
  split at one
  · cases one
  · rename_i equal
    rw [equal, Except.ok.inj one]
  · cases one

theorem read_eq_ok {literal path : String} {value : Int}
    (read : Numeral.read literal path = .ok value) : Numeral.read? literal = some value := by
  unfold Numeral.read at read
  split at read
  · rename_i equal
    rw [equal, Except.ok.inj read]
  · cases read

theorem bind_eq_ok {α β : Type} {first : Except Failure α} {next : α → Except Failure β}
    {value : β} (ended : (first >>= next) = .ok value) :
    ∃ given, first = .ok given ∧ next given = .ok value := by
  cases first with
  | error failure => cases ended
  | ok given => exact ⟨given, rfl, ended⟩

theorem number?_of_readInt {element : Element} {path : String} {value : Int} (names : List String)
    (along : steps path = names) (read : element.readInt path = .ok value) :
    element.number? names = some value := by
  obtain ⟨found, one, literal⟩ := bind_eq_ok read
  rw [number?, under_of_findOne along one]
  exact read_eq_ok literal

theorem under_of_findOptional {element : Element} {path : String} {names : List String}
    {found : Option Element} (along : steps path = names)
    (one : element.findOptional path = .ok found) : element.under names = found.toList := by
  rw [findOptional, descendants_eq names along] at one
  split at one
  · rename_i equal
    rw [equal, ← Except.ok.inj one]
    rfl
  · rename_i equal
    rw [equal, ← Except.ok.inj one]
    rfl
  · cases one

theorem number?_of_readOptionalInt {element : Element} {path : String} {default value : Int}
    (names : List String) (along : steps path = names)
    (read : element.readOptionalInt path default = .ok value) :
    (element.under names = [] ∧ value = default) ∨ element.number? names = some value := by
  obtain ⟨found, one, literal⟩ := bind_eq_ok read
  have chain := under_of_findOptional along one
  cases found with
  | none => exact .inl ⟨chain, (Except.ok.inj literal).symm⟩
  | some found =>
      right
      rw [number?, chain]
      exact read_eq_ok literal

theorem text?_of_readOptionalText {element : Element} {path text : String} (names : List String)
    (along : steps path = names) (read : element.readOptionalText path "" = .ok text) :
    element.text? names = some text := by
  obtain ⟨found, one, content⟩ := bind_eq_ok read
  have chain := under_of_findOptional along one
  cases found with
  | none =>
      rw [text?, chain, ← Except.ok.inj content]
      rfl
  | some found =>
      rw [text?, chain, ← Except.ok.inj content]
      rfl

end BusTables.Element
