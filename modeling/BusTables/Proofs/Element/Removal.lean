import BusTables.Proofs.Element.Search

/-!
# Trees without one of their elements

An element is taken out of a tree where it stands at the end of a chain of names.  What stands at
the end of that chain is the same as before, without the element (`Without.exists_split`), and a
chain that starts with another name leads to the same elements (`Without.under_of_ne`).
-/

namespace BusTables.Element

/-- A tree loses an element at the end of a chain of names, and nothing else. -/
inductive Without (gone : Element) : List String → Element → Element → Prop where
  | child (parent : Element) (before after : List Element) :
      Without gone [gone.name] { parent with children := before ++ gone :: after }
        { parent with children := before ++ after }
  | within (parent : Element) (before after : List Element) {names : List String}
      {whole rest : Element} (inner : Without gone names whole rest) :
      Without gone (whole.name :: names) { parent with children := before ++ whole :: after }
        { parent with children := before ++ rest :: after }

variable {gone whole rest : Element} {names : List String}

theorem under_cons (name : String) (names : List String) (element : Element) :
    element.under (name :: names) =
      (element.children.filter (·.name == name)).flatMap (under names) :=
  rfl

namespace Without

theorem name_eq (without : Without gone names whole rest) : rest.name = whole.name := by
  cases without with
  | child => rfl
  | within => rfl

theorem exists_split (without : Without gone names whole rest) :
    ∃ before after, whole.under names = before ++ gone :: after ∧
      rest.under names = before ++ after := by
  induction without with
  | child parent before after =>
      refine ⟨before.filter (·.name == gone.name), after.filter (·.name == gone.name), ?_, ?_⟩
      · simp [under]
      · simp [under]
  | @within parent before after names whole rest inner ih =>
      obtain ⟨front, back, first, second⟩ := ih
      refine ⟨(before.filter (·.name == whole.name)).flatMap (under names) ++ front,
        back ++ (after.filter (·.name == whole.name)).flatMap (under names), ?_, ?_⟩
      · simp [under_cons, first]
      · simp [under_cons, inner.name_eq, second]

theorem under_of_ne {name other : String} {chain : List String}
    (without : Without gone (name :: names) whole rest) (apart : name ≠ other) :
    rest.under (other :: chain) = whole.under (other :: chain) := by
  cases without with
  | child parent before after =>
      simp [under_cons, apart]
  | within parent before after inner =>
      simp [under_cons, inner.name_eq, apart]

end Without

section Reading

variable {element other : Element} {path : String}

theorem descendants_congr (same : other.under (steps path) = element.under (steps path)) :
    other.descendants path = element.descendants path := by
  rw [descendants_eq (steps path) rfl, descendants_eq (steps path) rfl, same]

theorem readInt_congr (same : other.under (steps path) = element.under (steps path)) :
    other.readInt path = element.readInt path := by
  rw [readInt, findOne, descendants_congr same]
  rfl

theorem readOptionalInt_congr (same : other.under (steps path) = element.under (steps path))
    (default : Int) :
    other.readOptionalInt path default = element.readOptionalInt path default := by
  rw [readOptionalInt, findOptional, descendants_congr same]
  rfl

end Reading

end BusTables.Element
