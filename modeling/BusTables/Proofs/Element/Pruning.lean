import BusTables.Proofs.Element.Removal

/-!
# Trees without what a schema leaves out

A schema says which attributes and which children of an element are read.  A pruned element keeps
the attributes and the children that its schema names, each child pruned in turn, and a leaf keeps
its text.  A chain of names that a schema knows leads from a pruned element to the elements to
which it leads from the whole one, each of them pruned (`Schema.under_prune`).
-/

namespace BusTables.Element

/-- The first attribute of each name in a list, in document order. -/
def firstNamed : List String → List (String × String) → List (String × String)
  | _, [] => []
  | names, (name, value) :: later =>
      if name ∈ names then (name, value) :: firstNamed (names.erase name) later
      else firstNamed names later

theorem lookup_firstNamed {name : String} {names : List String} (known : name ∈ names)
    (attributes : List (String × String)) :
    (firstNamed names attributes).lookup name = attributes.lookup name := by
  induction attributes generalizing names with
  | nil => rfl
  | cons entry later ih =>
      obtain ⟨other, value⟩ := entry
      rw [firstNamed, List.lookup_cons]
      by_cases same : name = other
      · subst same
        simp [known]
      · rw [beq_eq_false_iff_ne.mpr same]
        split
        · -- The name is still looked for, as another one has been found.
          rw [List.lookup_cons, beq_eq_false_iff_ne.mpr same]
          exact ih ((List.mem_erase_of_ne same).mpr known)
        · exact ih known

/-- What is read of an element: the text of a leaf, or else some attributes and the children of
some names. -/
inductive Schema where
  | leaf
  | branch (attributes : List String) (inside : List (String × Schema))

namespace Schema

/-- Children of which only the text is read. -/
def leaves (names : List String) : List (String × Schema) := names.map (·, .leaf)

mutual

/-- An element without what the schema leaves out. -/
def prune : Schema → Element → Element
  | .leaf, element => { element with attributes := [], children := [] }
  | .branch attributes inside, element =>
      { name := element.name
        attributes := firstNamed attributes element.attributes
        text := none
        children := element.children.filterMap (pruneChild inside) }

/-- A child pruned by the schema for its name, if there is one. -/
def pruneChild : List (String × Schema) → Element → Option Element
  | [], _ => none
  | (name, schema) :: others, child =>
      if child.name = name then some (schema.prune child) else pruneChild others child

end

/-- The schema for the elements at the end of a chain of names. -/
def along? : List String → Schema → Option Schema
  | [], schema => some schema
  | _ :: _, .leaf => none
  | name :: later, .branch _ inside => (inside.lookup name).bind (along? later)

variable {schema : Schema} {inside : List (String × Schema)}

@[simp] theorem name_prune (schema : Schema) (element : Element) :
    (schema.prune element).name = element.name := by
  cases schema <;> rfl

@[simp] theorem content_prune_leaf (element : Element) :
    (leaf.prune element).content = element.content :=
  rfl

theorem attribute?_prune {attributes : List String} {name : String} (known : name ∈ attributes)
    (element : Element) :
    ((branch attributes inside).prune element).attribute? name = element.attribute? name :=
  lookup_firstNamed known element.attributes

theorem lookup_leaves {name : String} {names : List String} (known : name ∈ names) :
    (leaves names).lookup name = some .leaf := by
  induction names with
  | nil => cases known
  | cons other later ih =>
      rw [leaves, List.map_cons, List.lookup_cons]
      cases same : name == other with
      | true => rfl
      | false => exact ih ((List.mem_cons.mp known).resolve_left (beq_eq_false_iff_ne.mp same))

theorem pruneChild_eq (inside : List (String × Schema)) (child : Element) :
    pruneChild inside child = (inside.lookup child.name).map (·.prune child) := by
  induction inside with
  | nil => rfl
  | cons entry others ih =>
      obtain ⟨name, schema⟩ := entry
      rw [pruneChild, ih, List.lookup_cons]
      by_cases same : child.name = name
      · rw [if_pos same, beq_iff_eq.mpr same]
        rfl
      · rw [if_neg same, beq_eq_false_iff_ne.mpr same]

/-- The children of a name that the schema knows are all kept, and no other child joins them. -/
theorem filter_pruneChild {name : String} (known : inside.lookup name = some schema)
    (children : List Element) :
    (children.filterMap (pruneChild inside)).filter (·.name == name) =
      (children.filter (·.name == name)).map schema.prune := by
  induction children with
  | nil => rfl
  | cons child others ih =>
      by_cases same : child.name = name
      · have kept : pruneChild inside child = some (schema.prune child) := by
          rw [pruneChild_eq, same, known]
          rfl
        rw [List.filterMap_cons_some kept, List.filter_cons_of_pos (by simpa using same),
          List.filter_cons_of_pos (by simpa using same), List.map_cons, ih]
      · rw [List.filter_cons_of_neg (by simpa using same), ← ih, List.filterMap_cons,
          pruneChild_eq]
        cases inside.lookup child.name with
        | none => rfl
        | some other =>
            rw [Option.map_some, List.filter_cons_of_neg (by simpa using same)]

theorem under_prune {names : List String} {inner : Schema}
    (known : along? names schema = some inner) (element : Element) :
    (schema.prune element).under names = (element.under names).map inner.prune := by
  induction names generalizing schema element with
  | nil =>
      obtain rfl := Option.some.inj known
      rfl
  | cons name later ih =>
      cases schema with
      | leaf => cases known
      | branch attributes inside =>
          obtain ⟨next, here, beyond⟩ := Option.bind_eq_some_iff.mp known
          rw [under_cons, under_cons, prune, filter_pruneChild here, List.flatMap_map,
            List.map_flatMap]
          exact congrArg (List.flatMap · _) (funext fun child => ih beyond child)

end Schema

end BusTables.Element
