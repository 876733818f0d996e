import BusTables.Proofs.Configuration.Checks

/-!
# Which documents are accepted

The builder checks each slave in document order: its optional increment, its identity, then its
commands.  A disabled command is checked for its comment only, any other one for all that a
command needs.  These checks decide the builder (`Configuration.build_accepts_exactly`), which
says which documents are accepted and which failure is reported where several things are wrong.
-/

namespace BusTables

open Element

namespace Command

/-- A transition has a name that is not blank. -/
def nameCheck (name : Element) : Check :=
  ⟨!(Text.trim name.content).isEmpty, .value .emptyTransition⟩

/-- A text is a payload. -/
def payloadChecks (text : String) : List Check :=
  match Payload.ofText text with
  | .ok _ => []
  | .error fault => [⟨false, .value (.payload fault)⟩]

/-- The checks of what an enabled command needs. -/
def fieldChecks (element : Element) : List Check :=
  [[element.atLeastOne "Transition"],
    (element.under (steps "Transition")).map nameCheck,
    element.oneNumber "Timeout",
    [element.atMostOne "Data"],
    [element.atMostOne "Comment"],
    element.oneNumber "Ccs",
    element.oneNumber "Index",
    element.oneNumber "SubIndex",
    payloadChecks ((element.text? ["Data"]).getD "")].flatten

/-- The checks of a command; the child that may disable it counts unless the attribute does. -/
def checks (element : Element) : List Check :=
  if element.attribute? "Disabled" = some "1" then [element.atMostOne "Comment"]
  else element.atMostOne "Disabled" ::
    if element.saysDisabled then [element.atMostOne "Comment"] else fieldChecks element

theorem decides_transition (name : Element) : Decides [nameCheck name] (transition name) := by
  unfold transition nameCheck
  refine .single (fun passed => ?_) fun failed => ?_
  · rw [Bool.not_eq_true'] at passed
    exact ⟨Text.trim name.content, by simp [passed]⟩
  · rw [Bool.not_eq_false'] at failed
    simp [failed]

theorem decides_payload (text : String) : Decides (payloadChecks text) (payload text) := by
  unfold payload payloadChecks
  cases Payload.ofText text with
  | ok data => exact .value data
  | error fault => exact rfl

theorem decides_ofElement (element : Element) :
    Decides (fieldChecks element) (ofElement element) := by
  refine (element.decides_find "Transition").bind fun named found => ?_
  rw [under_of_find rfl found, List.map_eq_flatMap]
  refine (Decides.mapM decides_transition named).bind fun transitions _ => ?_
  refine (element.decides_readInt "Timeout").bind fun timeout _ => ?_
  refine (element.decides_readOptionalText "Data" "").bind fun digits read => ?_
  refine (element.decides_readOptionalText "Comment" "").bind fun comment _ => ?_
  refine (element.decides_readInt "Ccs").bind fun specifier _ => ?_
  refine (element.decides_readInt "Index").bind fun index _ => ?_
  refine (element.decides_readInt "SubIndex").bind fun subIndex _ => ?_
  rw [text?_of_readOptionalText ["Data"] (by decide) read]
  refine (decides_payload digits).bind fun data _ => ?_
  exact .value _

theorem result_build (element : Element) : (build element).result = ofElement element := by
  rw [build, Traced.result_bind]
  exact bind_pure (ofElement element)

/-- The outcome for a command, without what is reported on the way. -/
theorem result_buildEnabled (element : Element) :
    (buildEnabled element).result = isDisabled element >>= fun disabled =>
      if disabled then element.readOptionalText "Comment" "" >>= fun _ => .ok none
      else ofElement element >>= fun command => .ok (some command) := by
  rw [buildEnabled, Traced.result_bind]
  refine congrArg _ (funext fun disabled => ?_)
  cases disabled with
  | true =>
      rw [if_pos rfl, if_pos rfl, Traced.result_bind]
      rfl
  | false =>
      rw [if_neg Bool.false_ne_true, if_neg Bool.false_ne_true, Traced.result_bind, result_build]
      rfl

theorem decides_isDisabled {element : Element}
    (unsaid : element.attribute? "Disabled" ≠ some "1") :
    Decides [element.atMostOne "Disabled"] (isDisabled element) := by
  rw [isDisabled, if_neg unsaid]
  exact (element.decides_readOptionalText "Disabled" "").map (· == "1")

theorem decides_buildEnabled (element : Element) :
    Decides (checks element) (buildEnabled element).result := by
  have rest (disabled : Bool) :
      Decides (if disabled then [element.atMostOne "Comment"] else fieldChecks element)
        (if disabled then element.readOptionalText "Comment" "" >>= fun _ => .ok none
        else ofElement element >>= fun command => .ok (some command)) := by
    cases disabled with
    | true => exact (element.decides_readOptionalText "Comment" "").map fun _ => none
    | false => exact (decides_ofElement element).map some
  rw [result_buildEnabled, checks]
  split
  · rename_i said
    rw [isDisabled, if_pos said]
    exact rest true
  · rename_i unsaid
    refine (decides_isDisabled unsaid).bind fun disabled ended => ?_
    rw [disabled_of_isDisabled ended]
    exact rest disabled

/-- The commands that are kept of those that elements describe. -/
def kept (elements : List Element) : Except Failure (List Command) :=
  (elements.mapM fun element => (buildEnabled element).result) >>= fun commands =>
    .ok commands.reduceOption

theorem decides_kept (elements : List Element) :
    Decides (elements.flatMap checks) (kept elements) :=
  (Decides.mapM decides_buildEnabled elements).map List.reduceOption

end Command

namespace Slave

/-- What is read of a slave before its commands. -/
def identity (element : Element) (position : Int) : Except Failure (List Command → Slave) := do
  let increment ← element.readOptionalInt "Info/AutoIncAddr" (1 - position)
  let vendor ← element.readInt "Info/VendorId"
  let product ← element.readInt "Info/ProductCode"
  let revision ← element.readInt "Info/RevisionNo"
  return fun commands => {
    address := addressOf increment
    vendor := UInt32.ofInt vendor
    product := UInt32.ofInt product
    revision := UInt32.ofInt revision
    commands }

theorem result_build (element : Element) (position : Int) :
    (build element position).result = identity element position >>= fun slave =>
      Command.kept (element.under (Element.steps commandPath)) >>= fun commands =>
        .ok (slave commands) := by
  unfold build identity Command.kept
  simp only [Traced.result_bind, bind_assoc, pure_bind]
  rw [Traced.result_mapM, descendants_eq (Element.steps commandPath) rfl]
  rfl

/-- The checks of a slave before those of its commands. -/
def identityChecks (element : Element) : List Check :=
  [element.optionalNumber "Info/AutoIncAddr",
    element.oneNumber "Info/VendorId",
    element.oneNumber "Info/ProductCode",
    element.oneNumber "Info/RevisionNo"].flatten

/-- The checks of a slave. -/
def checks (element : Element) : List Check :=
  identityChecks element ++ (element.under (Element.steps commandPath)).flatMap Command.checks

theorem decides_identity (element : Element) (position : Int) :
    Decides (identityChecks element) (identity element position) := by
  refine (element.decides_readOptionalInt "Info/AutoIncAddr" _).bind fun increment _ => ?_
  refine (element.decides_readInt "Info/VendorId").bind fun vendor _ => ?_
  refine (element.decides_readInt "Info/ProductCode").bind fun product _ => ?_
  refine (element.decides_readInt "Info/RevisionNo").bind fun revision _ => ?_
  exact .value _

theorem decides_build (element : Element) (position : Int) :
    Decides (checks element) (build element position).result := by
  rw [result_build]
  refine (decides_identity element position).bind fun slave _ => ?_
  exact (Command.decides_kept (element.under (Element.steps commandPath))).map slave

end Slave

namespace Configuration

/-- The checks of all slaves, one slave after the other. -/
def checks (element : Element) : List Check :=
  (element.under (steps "Slave")).flatMap Slave.checks

theorem decides_build (element : Element) : Decides (checks element) (build element).result := by
  have positioned := Decides.traversal
    (fun source : Element × Nat => Slave.decides_build source.1 source.2)
    ((element.under (steps "Slave")).zipIdx 1)
  rw [← List.flatMap_map, List.zipIdx_map_fst] at positioned
  rw [build, Traced.result_bind, descendants_eq (steps "Slave") rfl]
  exact positioned.map Configuration.mk

end Configuration

/-! ### What is accepted -/

namespace Command

/-- The element of a command holds all that a command needs. -/
structure Complete (element : Element) : Prop where
  transitions : element.under ["Transition"] ≠ []
  named : ∀ name ∈ element.under ["Transition"], Text.trim name.content ≠ ""
  timeout : (element.number? ["Timeout"]).isSome
  specifier : (element.number? ["Ccs"]).isSome
  index : (element.number? ["Index"]).isSome
  subIndex : (element.number? ["SubIndex"]).isSome
  comment : (element.under ["Comment"]).length ≤ 1
  data : ∃ bytes, (element.text? ["Data"]).map Payload.ofText = some (.ok bytes)

/-- The element of a command is accepted: it is disabled, or it is complete. -/
inductive Accepted (element : Element) : Prop where
  | disabled (said : element.saysDisabled = true)
      (comment : (element.under ["Comment"]).length ≤ 1)
  | enabled (unsaid : element.saysDisabled = false)
      (once : (element.under ["Disabled"]).length ≤ 1) (complete : Complete element)

end Command

/-- The element of a slave is accepted with all its commands. -/
structure Slave.Accepted (element : Element) : Prop where
  increment : element.under ["Info", "AutoIncAddr"] = [] ∨
    (element.number? ["Info", "AutoIncAddr"]).isSome
  vendor : (element.number? ["Info", "VendorId"]).isSome
  product : (element.number? ["Info", "ProductCode"]).isSome
  revision : (element.number? ["Info", "RevisionNo"]).isSome
  commands : ∀ command ∈ element.under ["Mailbox", "CoE", "InitCmds", "InitCmd"],
    Command.Accepted command

namespace Element

variable (element : Element) {path : String} {names : List String}

theorem met_atMostOne (along : steps path = names) :
    (element.atMostOne path).met = true ↔ (element.under names).length ≤ 1 := by
  rw [atMostOne, along, decide_eq_true_eq]

theorem met_atLeastOne (along : steps path = names) :
    (element.atLeastOne path).met = true ↔ element.under names ≠ [] := by
  rw [atLeastOne, along, Bool.not_eq_true', List.isEmpty_eq_false_iff]

theorem allMet_oneNumber (along : steps path = names) :
    AllMet (element.oneNumber path) ↔ (element.number? names).isSome := by
  unfold oneNumber literals number?
  rw [allMet_cons, allMet_cons, allMet_map, met_atMostOne element along,
    met_atLeastOne element along, along]
  rcases element.under names with _ | ⟨first, _ | ⟨second, others⟩⟩ <;>
    simp [Numeral.read?_eq]

theorem allMet_optionalNumber (along : steps path = names) :
    AllMet (element.optionalNumber path) ↔
      element.under names = [] ∨ (element.number? names).isSome := by
  unfold optionalNumber literals number?
  rw [allMet_cons, allMet_map, met_atMostOne element along, along]
  rcases element.under names with _ | ⟨first, _ | ⟨second, others⟩⟩ <;>
    simp [Numeral.read?_eq]

end Element

namespace Command

theorem allMet_payloadChecks (text : String) :
    AllMet (payloadChecks text) ↔ ∃ bytes, Payload.ofText text = .ok bytes := by
  unfold payloadChecks
  cases Payload.ofText text <;> simp

/-- The text of the only child of a name is there unless there are several such children. -/
theorem isSome_text? (element : Element) (names : List String) :
    (element.text? names).isSome ↔ (element.under names).length ≤ 1 := by
  unfold text?
  rcases element.under names with _ | ⟨first, _ | ⟨second, others⟩⟩ <;> simp

theorem allMet_fieldChecks (element : Element) :
    AllMet (fieldChecks element) ↔ Complete element := by
  have along : steps "Transition" = ["Transition"] := by decide
  have named (name : Element) :
      (nameCheck name).met = true ↔ Text.trim name.content ≠ "" := by
    simp [nameCheck]
  have data : ((element.under ["Data"]).length ≤ 1 ∧
        AllMet (payloadChecks ((element.text? ["Data"]).getD ""))) ↔
      ∃ bytes, (element.text? ["Data"]).map Payload.ofText = some (.ok bytes) := by
    rw [← isSome_text?, allMet_payloadChecks]
    cases element.text? ["Data"] <;> simp
  simp only [fieldChecks, List.flatten_cons, List.flatten_nil, List.append_nil, allMet_append,
    allMet_cons, allMet_nil, and_true, allMet_map, along, named,
    met_atLeastOne element along,
    allMet_oneNumber element (show steps "Timeout" = ["Timeout"] by decide),
    met_atMostOne element (show steps "Data" = ["Data"] by decide),
    met_atMostOne element (show steps "Comment" = ["Comment"] by decide),
    allMet_oneNumber element (show steps "Ccs" = ["Ccs"] by decide),
    allMet_oneNumber element (show steps "Index" = ["Index"] by decide),
    allMet_oneNumber element (show steps "SubIndex" = ["SubIndex"] by decide)]
  constructor
  · rintro ⟨transitions, names, timeout, once, comment, specifier, index, subIndex, payload⟩
    exact ⟨transitions, names, timeout, specifier, index, subIndex, comment,
      data.mp ⟨once, payload⟩⟩
  · rintro ⟨transitions, names, timeout, specifier, index, subIndex, comment, bytes⟩
    obtain ⟨once, payload⟩ := data.mpr bytes
    exact ⟨transitions, names, timeout, once, comment, specifier, index, subIndex, payload⟩

theorem accepted_iff (element : Element) :
    Accepted element ↔ if element.saysDisabled then (element.under ["Comment"]).length ≤ 1
      else (element.under ["Disabled"]).length ≤ 1 ∧ Complete element := by
  constructor
  · rintro (⟨said, few⟩ | ⟨unsaid, once, complete⟩)
    · rwa [if_pos said]
    · rw [if_neg (Bool.eq_false_iff.mp unsaid)]
      exact ⟨once, complete⟩
  · intro accepted
    split at accepted
    · rename_i said
      exact .disabled said accepted
    · rename_i unsaid
      exact .enabled (Bool.eq_false_iff.mpr unsaid) accepted.1 accepted.2

theorem allMet_checks (element : Element) : AllMet (checks element) ↔ Accepted element := by
  have comment : AllMet [element.atMostOne "Comment"] ↔
      (element.under ["Comment"]).length ≤ 1 := by
    rw [allMet_cons, and_iff_left allMet_nil]
    exact met_atMostOne element (by decide)
  have once : (element.atMostOne "Disabled").met = true ↔
      (element.under ["Disabled"]).length ≤ 1 :=
    met_atMostOne element (by decide)
  rw [checks, accepted_iff]
  by_cases given : element.attribute? "Disabled" = some "1"
  · have said : element.saysDisabled = true := by simp [saysDisabled, given]
    rw [if_pos given, if_pos said, comment]
  · rw [if_neg given, allMet_cons, once]
    by_cases said : element.saysDisabled = true
    · -- Only a child can say so here, and then it is the only child of its name.
      have child : element.text? ["Disabled"] = some "1" := by
        simpa [saysDisabled, given] using said
      have few : (element.under ["Disabled"]).length ≤ 1 := by
        rw [← isSome_text?, child]
        rfl
      rw [if_pos said, if_pos said, comment, and_iff_right few]
    · rw [if_neg said, if_neg said, allMet_fieldChecks]

end Command

theorem Slave.allMet_checks (element : Element) : AllMet (checks element) ↔ Accepted element := by
  have along : Element.steps commandPath = ["Mailbox", "CoE", "InitCmds", "InitCmd"] := by decide
  have increment := @allMet_optionalNumber element "Info/AutoIncAddr" ["Info", "AutoIncAddr"]
    (by decide)
  have vendor := @allMet_oneNumber element "Info/VendorId" ["Info", "VendorId"] (by decide)
  have product := @allMet_oneNumber element "Info/ProductCode" ["Info", "ProductCode"] (by decide)
  have revision := @allMet_oneNumber element "Info/RevisionNo" ["Info", "RevisionNo"] (by decide)
  simp only [checks, identityChecks, List.flatten_cons, List.flatten_nil, List.append_nil,
    allMet_append, allMet_flatMap, along, Command.allMet_checks, increment, vendor, product,
    revision]
  constructor
  · rintro ⟨⟨increment, vendor, product, revision⟩, commands⟩
    exact ⟨increment, vendor, product, revision, commands⟩
  · rintro ⟨increment, vendor, product, revision, commands⟩
    exact ⟨⟨increment, vendor, product, revision⟩, commands⟩

/-- Exactly those elements give a configuration all of whose slaves are accepted, and any other
one is refused for the first check that is not met. -/
theorem Configuration.build_accepts_exactly (element : Element) :
    ((∃ configuration, (build element).result = .ok configuration) ↔
        ∀ slave ∈ element.under ["Slave"], Slave.Accepted slave) ∧
      ∀ failure, (build element).result = .error failure ↔
        firstFault? (checks element) = some failure := by
  have along : steps "Slave" = ["Slave"] := by decide
  have decided := decides_build element
  refine ⟨?_, decided.error_iff⟩
  rw [decided.ok_iff, checks, allMet_flatMap, along]
  exact forall₂_congr fun slave _ => Slave.allMet_checks slave

end BusTables
