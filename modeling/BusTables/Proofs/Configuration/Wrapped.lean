import BusTables.Proofs.Configuration.Described
import BusTables.Proofs.Element.Removal

/-!
# Roots in a wrapper

The root of a document is the element that holds the configuration, or it wraps that element one
level deeper.  The name of the root decides where the configuration is looked for.  A wrapped root
is the only child of its name, so each chain of names leads from the wrapper through the root to
what it leads to from the root itself (`Element.Wraps.under_eq`).  What is built is the same, and
so is each failure but the one that names the path to the configuration
(`Configuration.buildFromRoot_wrapped`).
-/

namespace BusTables

open Element

namespace Element

/-- An element is the only one of its name among the children of another one. -/
def Wraps (wrapper inner : Element) : Prop :=
  wrapper.children.filter (·.name == inner.name) = [inner]

namespace Wraps

variable {wrapper inner : Element}

theorem of_split {before after : List Element}
    (children : wrapper.children = before ++ inner :: after)
    (alone : ∀ sibling ∈ before ++ after, sibling.name ≠ inner.name) : wrapper.Wraps inner := by
  have none : (before ++ after).filter (·.name == inner.name) = [] :=
    List.filter_eq_nil_iff.mpr fun sibling member same =>
      alone sibling member (beq_iff_eq.mp same)
  rw [List.filter_append, List.append_eq_nil_iff] at none
  rw [Wraps, children, List.filter_append, List.filter_cons, if_pos (beq_self_eq_true _), none.1,
    none.2, List.nil_append]

/-- A chain of names leads through the element to what its rest leads to from there. -/
theorem under_eq (wraps : wrapper.Wraps inner) (names : List String) :
    wrapper.under (inner.name :: names) = inner.under names := by
  rw [under_cons, wraps, List.flatMap_singleton]

end Wraps

/-- The only one of the elements that have been found at a path. -/
def onlyOf (path : String) : List Element → Except Failure Element
  | [] => .error (.schema (.tooFew path))
  | [found] => .ok found
  | _ => .error (.schema (.tooMany path))

theorem findOne_eq {path : String} (names : List String) (along : steps path = names)
    (element : Element) : element.findOne path = onlyOf path (element.under names) := by
  rw [findOne, descendants_eq names along]
  rcases element.under names with _ | ⟨first, _ | ⟨second, others⟩⟩ <;> rfl

end Element

namespace Configuration

/-- The elements below a root that are named as one that holds a configuration. -/
def configs (root : Element) : List Element := root.children.filter (·.name == "Config")

/-- A root is reported, and then a configuration is built from the only one of the elements that
have been found at a path. -/
def buildOnly (root path : String) (found : List Element) : Traced Configuration := do
  Traced.report (.rooted root path)
  let config ← onlyOf path found
  build config

/-- The same is built from a root and from its wrapper, and the failure is the same, unless the
root has no configuration or several: then each failure names the path that has been followed.
What is reported is the same, apart from the message about the root. -/
structure AgreeOn (root wrapper : Element) : Prop where
  one : ∀ config, configs root = [config] →
    (buildFromRoot root).result = (build config).result ∧
      (buildFromRoot wrapper).result = (build config).result
  none : configs root = [] →
    (buildFromRoot root).result = .error (.schema (.tooFew "Config")) ∧
      (buildFromRoot wrapper).result = .error (.schema (.tooFew "EtherCATConfig/Config"))
  many : 1 < (configs root).length →
    (buildFromRoot root).result = .error (.schema (.tooMany "Config")) ∧
      (buildFromRoot wrapper).result = .error (.schema (.tooMany "EtherCATConfig/Config"))
  reported : (buildFromRoot wrapper).messages.tail = (buildFromRoot root).messages.tail

theorem under_config (root : Element) : root.under ["Config"] = configs root := by
  rw [under_cons]
  exact List.flatMap_singleton' _

theorem buildFromRoot_eq (root : Element) :
    buildFromRoot root =
      buildOnly root.name (pathFrom root.name) (root.under (namesFrom root.name)) := by
  rw [buildOnly, ← findOne_eq _ (steps_pathFrom root.name)]
  rfl

theorem buildFromRoot_of_root {root : Element} (named : root.name = "EtherCATConfig") :
    buildFromRoot root = buildOnly root.name "Config" (configs root) := by
  have path : pathFrom root.name = "Config" := if_pos named
  have names : namesFrom root.name = ["Config"] := if_pos named
  rw [buildFromRoot_eq, path, names, under_config]

theorem buildFromRoot_of_wrapper {root wrapper : Element} (named : root.name = "EtherCATConfig")
    (unlike : wrapper.name ≠ "EtherCATConfig") (wraps : wrapper.Wraps root) :
    buildFromRoot wrapper =
      buildOnly wrapper.name "EtherCATConfig/Config" (configs root) := by
  have path : pathFrom wrapper.name = "EtherCATConfig/Config" := if_neg unlike
  have names : namesFrom wrapper.name = [root.name, "Config"] := by
    rw [named]
    exact if_neg unlike
  rw [buildFromRoot_eq, path, names, wraps.under_eq, under_config]

theorem result_buildOnly_of_many {root path : String} {found : List Element}
    (many : 1 < found.length) :
    (buildOnly root path found).result = .error (.schema (.tooMany path)) := by
  rcases found with _ | ⟨first, _ | ⟨second, others⟩⟩
  · cases many
  · exact absurd many (Nat.lt_irrefl 1)
  · rfl

/-- The name of the root and the path leave their mark on the first message only, and on a failure
to find the configuration. -/
theorem tail_messages_buildOnly (root other path otherPath : String) (found : List Element) :
    (buildOnly root path found).messages.tail =
      (buildOnly other otherPath found).messages.tail := by
  rcases found with _ | ⟨config, _ | ⟨second, others⟩⟩ <;> rfl

/-- A root is read as if it were not wrapped, whatever else the wrapper holds. -/
theorem buildFromRoot_wrapped {root wrapper : Element} {before after : List Element}
    (named : root.name = "EtherCATConfig") (unlike : wrapper.name ≠ "EtherCATConfig")
    (children : wrapper.children = before ++ root :: after)
    (alone : ∀ sibling ∈ before ++ after, sibling.name ≠ "EtherCATConfig") :
    AgreeOn root wrapper := by
  have wraps : wrapper.Wraps root := .of_split children (by rwa [named])
  have direct := buildFromRoot_of_root named
  have deeper := buildFromRoot_of_wrapper named unlike wraps
  constructor
  · intro config only
    rw [direct, deeper, only]
    exact ⟨rfl, rfl⟩
  · intro none
    rw [direct, deeper, none]
    exact ⟨rfl, rfl⟩
  · intro many
    rw [direct, deeper]
    exact ⟨result_buildOnly_of_many many, result_buildOnly_of_many many⟩
  · rw [direct, deeper]
    exact tail_messages_buildOnly _ _ _ _ _

/-- A slave without commands. -/
def plainSlave : Element :=
  ⟨"Slave", [], none, [⟨"Info", [], none, [⟨"VendorId", [], some "2", []⟩,
    ⟨"ProductCode", [], some "1", []⟩, ⟨"RevisionNo", [], some "3", []⟩]⟩]⟩

/-- A configuration with a slave; roots and configurations inside do not count. -/
def recurring : Element :=
  ⟨"Config", [], none, [⟨"EtherCATConfig", [], none, [⟨"Config", [], none, [plainSlave]⟩]⟩,
    plainSlave, ⟨"Config", [], none, [plainSlave]⟩]⟩

/-- A root that holds another root. -/
def outerRoot : Element :=
  ⟨"EtherCATConfig", [("Version", "1.2")], some "text",
    [⟨"EtherCATConfig", [], none, [⟨"Config", [], none, []⟩]⟩, recurring]⟩

/-- A wrapper that holds a configuration besides the root. -/
def outerWrapper : Element :=
  ⟨"EtherCATConfigs", [], some "text",
    [⟨"Config", [], none, [plainSlave]⟩] ++ outerRoot :: [⟨"Config", [], none, []⟩]⟩

/-- The only slave is that of the configuration in the root. -/
theorem buildFromRoot_wrapped_recurring :
    AgreeOn outerRoot outerWrapper ∧
      (buildFromRoot outerWrapper).result = .ok ⟨[⟨1, 2, 1, 3, []⟩]⟩ := by
  have agree : AgreeOn outerRoot outerWrapper :=
    buildFromRoot_wrapped rfl (by decide) rfl (by decide)
  refine ⟨agree, ?_⟩
  rw [(agree.one recurring rfl).2]
  decide +kernel

end Configuration

end BusTables
