import BusTables.Proofs.Element.Removal
import BusTables.Proofs.Rearrangement

/-!
# Trees with children in another order

Children may be moved past siblings of other names, anywhere in a tree.  A chain of names follows
one name at a time, so it meets the same elements in the same order, up to such moves inside them
(`Reordered.map_under`).
-/

namespace BusTables.Element

/-- The children of some elements of a tree are in another order, in which those of one name have
kept theirs. -/
inductive Reordered : Element → Element → Prop where
  | children (parent : Element) {moved : List Element}
      (order : Rearranged Element.name parent.children moved) :
      Reordered parent { parent with children := moved }
  | within (parent : Element) (before after : List Element) {whole other : Element}
      (inner : Reordered whole other) :
      Reordered { parent with children := before ++ whole :: after }
        { parent with children := before ++ other :: after }
  | trans {first second third : Element} (left : Reordered first second)
      (right : Reordered second third) : Reordered first third

namespace Reordered

variable {element other : Element}

/-- What does not hang on the children of an element stays as it is. -/
theorem eq_of_blind {α : Type} (seen : Element → α)
    (blind : ∀ (parent : Element) (children : List Element),
      seen { parent with children } = seen parent)
    (moved : Reordered element other) : seen other = seen element := by
  induction moved with
  | children parent => exact blind parent _
  | within parent => rw [blind parent, blind parent]
  | trans left right first second => rw [second, first]

theorem name_eq (moved : Reordered element other) : other.name = element.name :=
  moved.eq_of_blind Element.name fun _ _ => rfl

theorem content_eq (moved : Reordered element other) : other.content = element.content :=
  moved.eq_of_blind content fun _ _ => rfl

theorem attribute?_eq (moved : Reordered element other) (name : String) :
    other.attribute? name = element.attribute? name :=
  moved.eq_of_blind (attribute? · name) fun _ _ => rfl

/-- Whatever is the same for an element with its children in another order is the same for all
that a chain of names leads to. -/
theorem map_under {α : Type} {seen : Element → α}
    (same : ∀ element other, Reordered element other → seen other = seen element)
    (moved : Reordered element other) (names : List String) :
    (other.under names).map seen = (element.under names).map seen := by
  induction names generalizing element other with
  | nil => simp only [under, List.map_cons, List.map_nil, same _ _ moved]
  | cons name later ih =>
      induction moved with
      | children parent order => rw [under_cons, under_cons, order.stable]
      | within parent before after inner =>
          rw [under_cons, under_cons, List.filter_append, List.filter_append, List.filter_cons,
            List.filter_cons, inner.name_eq]
          split
          · simp [ih inner]
          · rfl
      | trans left right first second => rw [second, first]

end Reordered

end BusTables.Element
