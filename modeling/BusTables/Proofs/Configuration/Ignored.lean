import BusTables.Configuration.Builder
import BusTables.Proofs.Element.Pruning
import BusTables.Proofs.Element.Reordering
import Mathlib.Data.List.Basic

/-!
# What the builder ignores

The builder reads the texts at the end of some chains of names and two attributes of each command,
and it reads them in document order, chain by chain.  All else in a tree makes no difference to
what is built, to the failure, or to what is reported: it may be pruned away, and children may be
moved past siblings of other names (`Configuration.build_ignores`).
-/

namespace BusTables

open Element

namespace Element

/-- The texts at the end of a chain of names. -/
def contents (element : Element) (names : List String) : List String :=
  (element.under names).map content

section Contents

variable {element other : Element} {path : String} {names : List String}

theorem content_findOne (along : steps path = names) (element : Element) :
    content <$> element.findOne path = match element.contents names with
      | [] => .error (.schema (.tooFew path))
      | [text] => .ok text
      | _ => .error (.schema (.tooMany path)) := by
  rw [findOne, contents, descendants_eq names along]
  rcases element.under names with _ | ⟨first, _ | ⟨second, others⟩⟩ <;> rfl

theorem content_findOptional (along : steps path = names) (element : Element) :
    Option.map content <$> element.findOptional path = match element.contents names with
      | [] => .ok none
      | [text] => .ok (some text)
      | _ => .error (.schema (.tooMany path)) := by
  rw [findOptional, contents, descendants_eq names along]
  rcases element.under names with _ | ⟨first, _ | ⟨second, others⟩⟩ <;> rfl

theorem readInt_of_contents (along : steps path = names)
    (same : other.contents names = element.contents names) :
    other.readInt path = element.readInt path := by
  have read (given : Element) : given.readInt path =
      content <$> given.findOne path >>= fun text => Numeral.read text path := by
    rw [bind_map_left]
    rfl
  rw [read, read, content_findOne along, content_findOne along, same]

theorem readOptionalInt_of_contents (along : steps path = names)
    (same : other.contents names = element.contents names) (default : Int) :
    other.readOptionalInt path default = element.readOptionalInt path default := by
  have read (given : Element) : given.readOptionalInt path default =
      Option.map content <$> given.findOptional path >>= fun text =>
        (text.map (Numeral.read · path)).getD (.ok default) := by
    rw [bind_map_left, readOptionalInt]
    refine congrArg _ (funext fun found => ?_)
    cases found <;> rfl
  rw [read, read, content_findOptional along, content_findOptional along, same]

theorem readOptionalText_of_contents (along : steps path = names)
    (same : other.contents names = element.contents names) (default : String) :
    other.readOptionalText path default = element.readOptionalText path default := by
  have read (given : Element) : given.readOptionalText path default =
      Option.map content <$> given.findOptional path >>= fun text =>
        .ok (text.getD default) := by
    rw [bind_map_left, readOptionalText]
    refine congrArg _ (funext fun found => ?_)
    cases found <;> rfl
  rw [read, read, content_findOptional along, content_findOptional along, same]

/-- Where only the texts of elements count, it does not matter which elements are found. -/
theorem mapM_find_of_contents {α : Type} {step : Element → Except Failure α}
    (blind : ∀ first second : Element, first.content = second.content → step first = step second)
    (along : steps path = names) (same : other.contents names = element.contents names)
    (least most : Option Nat) :
    (other.find path least most >>= List.mapM step) =
      (element.find path least most >>= List.mapM step) := by
  have length : (other.under names).length = (element.under names).length := by
    simpa [contents] using congrArg List.length same
  have traversal (given : Element) : (given.under names).mapM step =
      (given.contents names).mapM fun text => step ⟨"", [], some text, []⟩ := by
    rw [contents, List.mapM_map]
    exact congrArg (List.mapM · _) (funext fun found => blind _ _ rfl)
  rw [find, find, descendants_eq names along, descendants_eq names along, length]
  split
  · rfl
  · split
    · rfl
    · exact (traversal other).trans ((congrArg _ same).trans (traversal element).symm)

theorem contents_prune {schema : Schema} (known : schema.along? names = some .leaf)
    (element : Element) : (schema.prune element).contents names = element.contents names := by
  rw [contents, Schema.under_prune known, List.map_map]
  exact congrArg (List.map · _) (funext Schema.content_prune_leaf)

theorem contents_of_reordered (moved : Reordered element other) (names : List String) :
    other.contents names = element.contents names :=
  moved.map_under (fun _ _ inner => inner.content_eq) names

end Contents

end Element

namespace Command

/-- The attributes that are read of a command. -/
def attributeNames : List String := ["Disabled", "CompleteAccess"]

/-- The children that are read of a command. -/
def childNames : List String :=
  ["Transition", "Timeout", "Data", "Comment", "Ccs", "Index", "SubIndex", "Disabled"]

/-- What is read of a command. -/
def schema : Schema := .branch attributeNames (Schema.leaves childNames)

/-- Two elements agree in all that is read of a command. -/
structure Alike (element other : Element) : Prop where
  attributes : ∀ name ∈ attributeNames, other.attribute? name = element.attribute? name
  contents : ∀ name ∈ childNames, other.contents [name] = element.contents [name]

variable {element other : Element}

theorem Alike.isDisabled_eq (alike : Alike element other) :
    isDisabled other = isDisabled element := by
  rw [isDisabled, isDisabled, alike.attributes "Disabled" (by decide),
    readOptionalText_of_contents (by decide) (alike.contents "Disabled" (by decide))]

theorem transition_of_content {first second : Element} (same : first.content = second.content) :
    transition first = transition second := by
  unfold transition
  rw [same]

theorem Alike.ofElement_eq (alike : Alike element other) : ofElement other = ofElement element := by
  have named := mapM_find_of_contents (fun _ _ => transition_of_content)
    (show steps "Transition" = ["Transition"] by decide)
    (alike.contents "Transition" (by decide)) (some 1) none
  unfold ofElement
  rw [← bind_assoc, ← bind_assoc, named]
  rw [readInt_of_contents (by decide) (alike.contents "Timeout" (by decide)),
    readInt_of_contents (by decide) (alike.contents "Ccs" (by decide)),
    readInt_of_contents (by decide) (alike.contents "Index" (by decide)),
    readInt_of_contents (by decide) (alike.contents "SubIndex" (by decide)),
    readOptionalText_of_contents (by decide) (alike.contents "Data" (by decide)),
    readOptionalText_of_contents (by decide) (alike.contents "Comment" (by decide)),
    alike.attributes "CompleteAccess" (by decide)]

/-- Elements that agree in what is read give the same command and the same report. -/
theorem Alike.buildEnabled_eq (alike : Alike element other) :
    buildEnabled other = buildEnabled element := by
  have comment := readOptionalText_of_contents (show steps "Comment" = ["Comment"] by decide)
    (alike.contents "Comment" (by decide)) ""
  rw [buildEnabled, buildEnabled, build, build, alike.isDisabled_eq, alike.ofElement_eq, comment]

theorem along?_schema {name : String} (known : name ∈ childNames) :
    schema.along? [name] = some .leaf := by
  rw [schema, Schema.along?, Schema.lookup_leaves known]
  rfl

theorem alike_prune (element : Element) : Alike element (schema.prune element) where
  attributes _ known := Schema.attribute?_prune known element
  contents _ known := contents_prune (along?_schema known) element

theorem alike_of_reordered (moved : Reordered element other) : Alike element other where
  attributes name _ := moved.attribute?_eq name
  contents name _ := contents_of_reordered moved [name]

end Command

namespace Slave

/-- The children that are read of what identifies a slave. -/
def infoNames : List String := ["AutoIncAddr", "VendorId", "ProductCode", "RevisionNo"]

/-- What is read of a slave. -/
def schema : Schema :=
  .branch []
    [("Info", .branch [] (Schema.leaves infoNames)),
      ("Mailbox", .branch []
        [("CoE", .branch [] [("InitCmds", .branch [] [("InitCmd", Command.schema)])])])]

/-- Two elements agree in what identifies a slave, and describe the same commands. -/
structure Alike (element other : Element) : Prop where
  info : ∀ name ∈ infoNames, other.contents ["Info", name] = element.contents ["Info", name]
  commands : (other.under (Element.steps commandPath)).map Command.buildEnabled =
    (element.under (Element.steps commandPath)).map Command.buildEnabled

variable {element other : Element}

theorem Alike.build_eq (alike : Alike element other) : build other = build element := by
  have gathered (given : Element) : (given.descendants commandPath).mapM Command.buildEnabled =
      ((given.under (Element.steps commandPath)).map Command.buildEnabled).mapM id := by
    rw [List.mapM_map, descendants_eq (Element.steps commandPath) rfl]
    rfl
  funext position
  unfold build
  rw [readOptionalInt_of_contents (by decide) (alike.info "AutoIncAddr" (by decide)),
    readInt_of_contents (by decide) (alike.info "VendorId" (by decide)),
    readInt_of_contents (by decide) (alike.info "ProductCode" (by decide)),
    readInt_of_contents (by decide) (alike.info "RevisionNo" (by decide)),
    gathered, gathered, alike.commands]

theorem along?_schema {name : String} (known : name ∈ infoNames) :
    schema.along? ["Info", name] = some .leaf := by
  change ((Schema.leaves infoNames).lookup name).bind (Schema.along? []) = _
  rw [Schema.lookup_leaves known]
  rfl

theorem along?_commandPath : schema.along? (Element.steps commandPath) = some Command.schema := by
  have along : Element.steps commandPath = ["Mailbox", "CoE", "InitCmds", "InitCmd"] := by decide
  rw [along]
  rfl

theorem alike_prune (element : Element) : Alike element (schema.prune element) where
  info _ known := contents_prune (along?_schema known) element
  commands := by
    rw [Schema.under_prune along?_commandPath, List.map_map]
    exact congrArg (List.map · _) (funext fun command =>
      (Command.alike_prune command).buildEnabled_eq)

theorem alike_of_reordered (moved : Reordered element other) : Alike element other where
  info name _ := contents_of_reordered moved ["Info", name]
  commands := moved.map_under (fun _ _ inner => (Command.alike_of_reordered inner).buildEnabled_eq)
    (Element.steps commandPath)

end Slave

namespace Configuration

/-- What is read of a configuration. -/
def schema : Schema := .branch [] [("Slave", Slave.schema)]

/-- A configuration is built from what its slaves are at each position. -/
theorem build_congr {element other : Element}
    (slaves : (other.under (steps "Slave")).map Slave.build =
      (element.under (steps "Slave")).map Slave.build) : build other = build element := by
  have gathered (given : Element) : build given =
      ((((given.under (steps "Slave")).map Slave.build).zipIdx 1).mapM fun placed =>
        placed.1 placed.2) >>= fun slaves => pure ⟨slaves⟩ := by
    rw [List.zipIdx_map, List.mapM_map, ← descendants_eq (steps "Slave") rfl]
    rfl
  rw [gathered, gathered, slaves]

/-- Pruning a tree by the schema makes no difference to what is built, which failure it is or what
is reported, and nor does another order of children that keeps the order of those of one name. -/
theorem build_ignores (element : Element) :
    build (schema.prune element) = build element ∧
      ∀ other, Reordered element other ∨ Reordered (schema.prune element) other →
        build other = build element := by
  have pruned : build (schema.prune element) = build element := by
    have known : schema.along? (steps "Slave") = some Slave.schema := by
      rw [show steps "Slave" = ["Slave"] by decide]
      rfl
    apply build_congr
    rw [Schema.under_prune known, List.map_map]
    exact congrArg (List.map · _) (funext fun slave => (Slave.alike_prune slave).build_eq)
  have reordered {first second : Element} (moved : Reordered first second) :
      build second = build first :=
    build_congr (moved.map_under (fun _ _ inner => (Slave.alike_of_reordered inner).build_eq) _)
  refine ⟨pruned, fun other => ?_⟩
  rintro (whole | rest)
  · exact reordered whole
  · rw [reordered rest, pruned]

/-- The identity of a device. -/
def identified : Element :=
  ⟨"Info", [], none, [⟨"VendorId", [], some "2", []⟩, ⟨"ProductCode", [], some "1", []⟩,
    ⟨"RevisionNo", [], some "3", []⟩]⟩

/-- The name of a device. -/
def titled : Element := ⟨"Name", [], some "Drive", []⟩

/-- A configuration with one slave, behind a device that is none and holds another one. -/
def cluttered (children : List Element) : Element :=
  ⟨"Config", [("Version", "2")], some "text",
    [⟨"Master", [], none, [⟨"Slave", [], none, []⟩]⟩,
      ⟨"Slave", [("Disabled", "1")], some "text", children⟩]⟩

theorem reordered_cluttered {children moved : List Element}
    (order : Rearranged Element.name children moved) :
    Reordered (cluttered children) (cluttered moved) :=
  (Reordered.children ⟨"Slave", [("Disabled", "1")], some "text", children⟩ order).within
    (cluttered []) [⟨"Master", [], none, [⟨"Slave", [], none, []⟩]⟩] []

/-- The slave is the first one, whatever stands before it and in whatever order its parts are. -/
theorem build_ignores_cluttered :
    Reordered (cluttered [identified, titled]) (cluttered [titled, identified]) ∧
      schema.prune (cluttered [identified, titled]) =
        ⟨"Config", [], none, [⟨"Slave", [], none, [identified]⟩]⟩ ∧
      (build (cluttered [titled, identified])).result = .ok ⟨[⟨1, 2, 1, 3, []⟩]⟩ := by
  have moved : Reordered (cluttered [identified, titled]) (cluttered [titled, identified]) :=
    reordered_cluttered (.swap (by decide) [] [])
  obtain ⟨pruned, same⟩ := build_ignores (cluttered [identified, titled])
  refine ⟨moved, rfl, ?_⟩
  rw [same _ (.inl moved), ← pruned]
  decide +kernel

end Configuration

end BusTables
