import BusTables.Proofs.Element.Search
import BusTables.Proofs.Element.Steps
import Mathlib.Data.List.Forall2

/-!
# Places in a tree

Two elements may be alike, but each stands at a place of its own: the positions among the
children, one for each step of the way down.  The order of the document is the lexicographic order
of places.  A look-up gives the elements at exactly those places to which the names of its path
lead, in this order and each once, and within bounds nothing else (`find_exact`).
-/

namespace BusTables.Element

/-- The element at a place, if the place is inside the tree. -/
def at? : List Nat → Element → Option Element
  | [], element => some element
  | position :: below, element => element.children[position]?.bind (at? below)

/-- The names of the elements on the way down to a place, without that of the first one. -/
def chain? : List Nat → Element → Option (List String)
  | [], _ => some []
  | position :: below, element =>
      element.children[position]?.bind fun child => (chain? below child).map (child.name :: ·)

/-- The places to which names lead, child by child. -/
def places : List String → Element → List (List Nat)
  | [], _ => [[]]
  | name :: later, element =>
      (element.children.zipIdx.filter (·.1.name == name)).flatMap fun child =>
        (places later child.1).map (child.2 :: ·)

/-- Elements are those to which names lead: each place once, and in the order of the document. -/
def Locates (element : Element) (names : List String) (found : List Element) : Prop :=
  ∃ places : List (List Nat), places.Pairwise (List.Lex (· < ·)) ∧
    (∀ place, place ∈ places ↔ element.chain? place = some names) ∧
    places.map (at? · element) = found.map some

/-- What a look-up gives whose bounds what is found without them keeps to or not. -/
structure KeepsTo (path : String) (least most : Option Nat) (found : List Element)
    (result : Except Failure (List Element)) : Prop where
  within : result = .ok found ↔
    (∀ bound ∈ least, bound ≤ found.length) ∧ ∀ bound ∈ most, found.length ≤ bound
  tooMany : (∃ bound ∈ most, bound < found.length) → result = .error (.schema (.tooMany path))
  tooFew : (∀ bound ∈ most, found.length ≤ bound) → (∃ bound ∈ least, found.length < bound) →
    result = .error (.schema (.tooFew path))

section Places

variable {name : String} {names later : List String} {element : Element}

theorem mem_children_named {child : Element} {position : Nat} :
    (child, position) ∈ element.children.zipIdx.filter (·.1.name == name) ↔
      element.children[position]? = some child ∧ child.name = name := by
  rw [List.mem_filter, List.mem_zipIdx_iff_getElem?, beq_iff_eq]

theorem mem_places {place : List Nat} :
    place ∈ places names element ↔ element.chain? place = some names := by
  induction names generalizing element place with
  | nil =>
      cases place with
      | nil => simp [places, chain?]
      | cons position below =>
          simp only [places, List.mem_singleton, reduceCtorEq, false_iff, chain?]
          intro led
          obtain ⟨child, -, inner⟩ := Option.bind_eq_some_iff.mp led
          obtain ⟨names, -, none⟩ := Option.map_eq_some_iff.mp inner
          cases none
  | cons name later ih =>
      cases place with
      | nil => simp [places, chain?]
      | cons position below =>
          simp only [places, List.mem_flatMap, Prod.exists, mem_children_named, List.mem_map,
            List.cons.injEq, chain?, Option.bind_eq_some_iff, Option.map_eq_some_iff]
          constructor
          · rintro ⟨child, _, ⟨stands, rfl⟩, inner, among, rfl, rfl⟩
            exact ⟨child, stands, later, ih.mp among, rfl, rfl⟩
          · rintro ⟨child, stands, _, led, rfl, rfl⟩
            exact ⟨child, position, ⟨stands, rfl⟩, below, ih.mpr led, rfl, rfl⟩

/-- The positions of children ascend. -/
theorem pairwise_zipIdx (children : List Element) :
    children.zipIdx.Pairwise (fun first second => first.2 < second.2) := by
  have ascending : (children.zipIdx.map Prod.snd).Pairwise (· < ·) := by
    rw [List.zipIdx_map_snd]
    exact List.pairwise_lt_range'
  exact List.pairwise_map.mp ascending

theorem pairwise_places (names : List String) (element : Element) :
    (places names element).Pairwise (List.Lex (· < ·)) := by
  induction names generalizing element with
  | nil => exact List.pairwise_singleton _ _
  | cons name later ih =>
      rw [places, List.pairwise_flatMap]
      constructor
      -- Below one child the rest of the way decides,
      · intro child _
        exact List.pairwise_map.mpr ((ih child.1).imp List.Lex.cons)
      -- and below different children their positions do.
      · refine ((pairwise_zipIdx element.children).filter _).imp fun before => ?_
        intro first among second other
        obtain ⟨_, _, rfl⟩ := List.mem_map.mp among
        obtain ⟨_, _, rfl⟩ := List.mem_map.mp other
        exact .rel before

theorem map_at?_places (names : List String) (element : Element) :
    (places names element).map (at? · element) = (element.under names).map some := by
  induction names generalizing element with
  | nil => rfl
  | cons name later ih =>
      have below : ∀ child ∈ element.children.zipIdx.filter (·.1.name == name),
          ((places later child.1).map (child.2 :: ·)).map (at? · element) =
            (child.1.under later).map some := by
        rintro ⟨child, position⟩ member
        rw [← ih child, List.map_map]
        refine List.map_congr_left fun place _ => ?_
        change (element.children[position]?.bind (at? place)) = at? place child
        rw [(mem_children_named.mp member).1, Option.bind_some]
      have named : (element.children.zipIdx.filter (·.1.name == name)).map Prod.fst =
          element.children.filter (·.name == name) := by
        rw [← List.zipIdx_map_fst 0 element.children, List.filter_map, List.zipIdx_map_fst]
        rfl
      rw [places, List.map_flatMap, List.flatMap_congr below, under, ← named, List.flatMap_map,
        List.map_flatMap]

theorem locates_under (names : List String) (element : Element) :
    element.Locates names (element.under names) :=
  ⟨places names element, pairwise_places names element, fun _ => mem_places,
    map_at?_places names element⟩

end Places

/-- What a path leads to is followed along another path element by element. -/
theorem descendants_append (element : Element) (path later : String) :
    element.descendants (path ++ "/" ++ later) =
      (element.descendants path).flatMap (·.descendants later) := by
  have rest : (fun origin : Element => origin.descendants later) = under (steps later) :=
    funext fun origin => descendants_eq (steps later) rfl origin
  rw [descendants, steps_append, descend_append_names, descend_eq_flatMap, rest]
  rfl

theorem find_unbounded (element : Element) (path : String) :
    element.find path none none = .ok (element.descendants path) :=
  rfl

section Bounds

variable {element : Element} {path : String} {least most : Option Nat}

/-- Too many are refused whether or not the other bound is kept to. -/
theorem find_tooMany (exceeded : ∃ bound ∈ most, bound < (element.descendants path).length) :
    element.find path least most = .error (.schema (.tooMany path)) := by
  have many : most.any (· < (element.descendants path).length) = true := by
    simpa [Option.any_eq_true] using exceeded
  rw [find, if_pos many]

theorem not_any_of_fits (fits : ∀ bound ∈ most, (element.descendants path).length ≤ bound) :
    ¬most.any (· < (element.descendants path).length) = true := by
  simpa [Option.any_eq_true] using fits

theorem find_tooFew (fits : ∀ bound ∈ most, (element.descendants path).length ≤ bound)
    (missed : ∃ bound ∈ least, (element.descendants path).length < bound) :
    element.find path least most = .error (.schema (.tooFew path)) := by
  have few : least.any ((element.descendants path).length < ·) = true := by
    simpa [Option.any_eq_true] using missed
  rw [find, if_neg (not_any_of_fits fits), if_pos few]

theorem find_within (enough : ∀ bound ∈ least, bound ≤ (element.descendants path).length)
    (fits : ∀ bound ∈ most, (element.descendants path).length ≤ bound) :
    element.find path least most = .ok (element.descendants path) := by
  have notFew : ¬least.any ((element.descendants path).length < ·) = true := by
    simpa [Option.any_eq_true] using enough
  rw [find, if_neg (not_any_of_fits fits), if_neg notFew]

end Bounds

theorem find_keepsTo (element : Element) (path : String) (least most : Option Nat) :
    KeepsTo path least most (element.descendants path) (element.find path least most) := by
  refine ⟨⟨fun ended => ?_, fun bounds => find_within bounds.1 bounds.2⟩, find_tooMany,
    find_tooFew⟩
  have fits : ∀ bound ∈ most, (element.descendants path).length ≤ bound := by
    by_contra exceeded
    simp only [not_forall, Nat.not_le, exists_prop] at exceeded
    exact nomatch (find_tooMany exceeded).symm.trans ended
  have enough : ∀ bound ∈ least, bound ≤ (element.descendants path).length := by
    by_contra missed
    simp only [not_forall, Nat.not_le, exists_prop] at missed
    exact nomatch (find_tooFew fits missed).symm.trans ended
  exact ⟨enough, fits⟩

/-- What a path leads to stands where its names lead, each element once and in document order; it
is given if its number lies within the bounds, and a longer path is followed from there.  The names
are the parts of the path that are neither empty nor single dots. -/
theorem find_exact (element : Element) (path : String) :
    ∃ found, element.find path none none = .ok found ∧
      (∃ parts, Parts path parts ∧ steps path = parts.filter leadsOn) ∧
      element.Locates (steps path) found ∧
      (steps path = [] → found = [element]) ∧
      (∀ least most, KeepsTo path least most found (element.find path least most)) ∧
      ∀ later, ∃ parts,
        List.Forall₂ (fun origin part => origin.find later none none = .ok part) found parts ∧
          element.find (path ++ "/" ++ later) none none = .ok parts.flatten := by
  obtain ⟨parts, cut⟩ := exists_parts path
  refine ⟨element.descendants path, find_unbounded element path, ⟨parts, cut, steps_of_parts cut⟩,
    ?_, ?_, element.find_keepsTo path, fun later => ?_⟩
  · rw [descendants_eq (steps path) rfl]
    exact locates_under (steps path) element
  · intro none
    rw [descendants, none]
    rfl
  · refine ⟨(element.descendants path).map (·.descendants later), ?_, ?_⟩
    · rw [List.forall₂_map_right_iff]
      exact List.forall₂_same.mpr fun origin _ => find_unbounded origin later
    · rw [find_unbounded, descendants_append, List.flatMap_def]

end BusTables.Element
