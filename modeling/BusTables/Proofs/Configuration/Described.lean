import BusTables.Configuration.Builder
import BusTables.Proofs.Element.Search
import Mathlib.Data.List.Forall2

/-!
# What a configuration says about its document

A configuration that is built describes the document, element by element: the slaves those below
the configuration element, the commands of a slave those that are not disabled, in document order
over all the elements that hold commands (`describes_of_buildFromContent`).
-/

namespace BusTables

namespace Element

/-- An attribute or the only child of the name says that a command is disabled. -/
def saysDisabled (element : Element) : Bool :=
  element.attribute? "Disabled" == some "1" || element.text? ["Disabled"] == some "1"

/-- The commands of a slave that are not disabled, in document order. -/
def enabledCommands (slave : Element) : List Element :=
  (slave.under ["Mailbox", "CoE", "InitCmds", "InitCmd"]).filter (!·.saysDisabled)

/-- The address of a slave; without an increment it is the position among the slaves. -/
def address? (slave : Element) (position : Nat) : Option UInt16 :=
  match slave.under ["Info", "AutoIncAddr"] with
  | [] => some (UInt16.ofNat position)
  | _ => (slave.number? ["Info", "AutoIncAddr"]).map fun increment => UInt16.ofInt (1 - increment)

end Element

open Element

/-- A command has the values that an element gives. -/
structure Command.Describes (element : Element) (command : Command) : Prop where
  comment : element.text? ["Comment"] = some command.comment
  transitions : (element.under ["Transition"]).map (fun name => Text.trim name.content) =
    command.transitions
  completeAccess : (element.attribute? "CompleteAccess" == some "1") = command.completeAccess
  specifier : (element.number? ["Ccs"]).map UInt8.ofInt = some command.specifier
  index : (element.number? ["Index"]).map UInt16.ofInt = some command.index
  subIndex : (element.number? ["SubIndex"]).map UInt8.ofInt = some command.subIndex
  timeout : (element.number? ["Timeout"]).map (fun time => Int32.ofInt (time * 1000)) =
    some command.timeout
  data : (element.text? ["Data"]).map Payload.ofText = some (.ok command.data)

/-- A slave has the values that an element at a position gives, and its commands. -/
structure Slave.Describes (source : Element × Nat) (slave : Slave) : Prop where
  address : source.1.address? source.2 = some slave.address
  vendor : (source.1.number? ["Info", "VendorId"]).map UInt32.ofInt = some slave.vendor
  product : (source.1.number? ["Info", "ProductCode"]).map UInt32.ofInt = some slave.product
  revision : (source.1.number? ["Info", "RevisionNo"]).map UInt32.ofInt = some slave.revision
  commands : List.Forall₂ Command.Describes source.1.enabledCommands slave.commands

namespace Traced

variable {α β : Type}

theorem bind_result_eq_ok {first : Traced α} {next : α → Traced β} {value : β}
    (ended : (first >>= next).result = .ok value) :
    ∃ given, first.result = .ok given ∧ (next given).result = .ok value := by
  rw [result_bind] at ended
  exact bind_eq_ok ended

/-- A traversal that ends with values has ended with each of them. -/
theorem forall₂_of_mapM {step : α → Traced β} {items : List α} {values : List β}
    (ended : (items.mapM step).result = .ok values) :
    List.Forall₂ (fun item value => (step item).result = .ok value) items values := by
  induction items generalizing values with
  | nil =>
      cases ended
      exact .nil
  | cons item later ih =>
      rw [List.mapM_cons] at ended
      obtain ⟨value, first, rest⟩ := bind_result_eq_ok ended
      obtain ⟨others, remaining, last⟩ := bind_result_eq_ok rest
      cases last
      exact .cons first (ih remaining)

end Traced

namespace Command

theorem transitions_of_mapM {elements : List Element} {names : List String}
    (ended : elements.mapM transition = .ok names) :
    elements.map (fun name => Text.trim name.content) = names := by
  induction elements generalizing names with
  | nil => exact Except.ok.inj ended
  | cons element later ih =>
      rw [List.mapM_cons] at ended
      obtain ⟨name, first, rest⟩ := bind_eq_ok ended
      obtain ⟨others, remaining, last⟩ := bind_eq_ok rest
      rw [List.map_cons, ih remaining, ← Except.ok.inj last]
      simp only [transition] at first
      split at first
      · cases first
      · rw [Except.ok.inj first]

theorem ofText_of_payload {text : String} {data : Payload} (read : payload text = .ok data) :
    Payload.ofText text = .ok data := by
  unfold payload at read
  split at read
  · rename_i equal
    rw [equal, Except.ok.inj read]
  · cases read

theorem describes_of_ofElement {element : Element} {command : Command}
    (ended : ofElement element = .ok command) : command.Describes element := by
  obtain ⟨named, found, ended⟩ := bind_eq_ok ended
  obtain ⟨transitions, mapped, ended⟩ := bind_eq_ok ended
  obtain ⟨timeout, readTimeout, ended⟩ := bind_eq_ok ended
  obtain ⟨digits, readDigits, ended⟩ := bind_eq_ok ended
  obtain ⟨comment, readComment, ended⟩ := bind_eq_ok ended
  obtain ⟨specifier, readSpecifier, ended⟩ := bind_eq_ok ended
  obtain ⟨index, readIndex, ended⟩ := bind_eq_ok ended
  obtain ⟨subIndex, readSubIndex, ended⟩ := bind_eq_ok ended
  obtain ⟨data, readData, ended⟩ := bind_eq_ok ended
  cases ended
  constructor
  · exact text?_of_readOptionalText ["Comment"] (by decide) readComment
  · rw [under_of_find (by decide) found]
    exact transitions_of_mapM mapped
  · rfl
  · rw [number?_of_readInt ["Ccs"] (by decide) readSpecifier]
    rfl
  · rw [number?_of_readInt ["Index"] (by decide) readIndex]
    rfl
  · rw [number?_of_readInt ["SubIndex"] (by decide) readSubIndex]
    rfl
  · rw [number?_of_readInt ["Timeout"] (by decide) readTimeout]
    rfl
  · rw [text?_of_readOptionalText ["Data"] (by decide) readDigits, Option.map_some,
      ofText_of_payload readData]

theorem disabled_of_isDisabled {element : Element} {disabled : Bool}
    (ended : isDisabled element = .ok disabled) : element.saysDisabled = disabled := by
  unfold isDisabled at ended
  split at ended
  · rename_i given
    rw [saysDisabled, given, ← Except.ok.inj ended]
    rfl
  · rename_i given
    obtain ⟨text, read, ended⟩ := bind_eq_ok ended
    rw [saysDisabled, text?_of_readOptionalText ["Disabled"] (by decide) read,
      beq_eq_false_iff_ne.mpr given, Bool.false_or, ← Except.ok.inj ended]
    rfl

theorem describes_of_buildEnabled {element : Element} {command : Option Command}
    (ended : (buildEnabled element).result = .ok command) :
    (element.saysDisabled = true ∧ command = none) ∨
      (element.saysDisabled = false ∧ ∃ built, command = some built ∧ built.Describes element) := by
  obtain ⟨disabled, said, ended⟩ := Traced.bind_result_eq_ok ended
  rw [disabled_of_isDisabled said]
  cases disabled with
  | true =>
      obtain ⟨comment, -, ended⟩ := Traced.bind_result_eq_ok ended
      obtain ⟨-, -, ended⟩ := Traced.bind_result_eq_ok ended
      exact .inl ⟨rfl, (Except.ok.inj ended).symm⟩
  | false =>
      obtain ⟨given, read, ended⟩ := Traced.bind_result_eq_ok ended
      obtain ⟨built, read, reported⟩ := Traced.bind_result_eq_ok read
      obtain ⟨-, -, last⟩ := Traced.bind_result_eq_ok reported
      cases last
      exact .inr ⟨rfl, _, (Except.ok.inj ended).symm, describes_of_ofElement read⟩

/-- The commands that are kept are those of the elements that are not disabled. -/
theorem describes_of_reduceOption {elements : List Element} {commands : List (Option Command)}
    (built : List.Forall₂ (fun element command =>
      (buildEnabled element).result = .ok command) elements commands) :
    List.Forall₂ Describes (elements.filter (!·.saysDisabled)) commands.reduceOption := by
  induction built with
  | nil => exact .nil
  | cons first _ ih =>
      rcases describes_of_buildEnabled first with ⟨disabled, rfl⟩ | ⟨enabled, command, rfl, same⟩
      · rw [List.filter_cons_of_neg (by simp [disabled])]
        exact ih
      · rw [List.filter_cons_of_pos (by simp [enabled])]
        exact .cons same ih

end Command

namespace Slave

theorem addressOf_position (position : Nat) : addressOf (1 - position) = UInt16.ofNat position := by
  have whole : (1 - (1 - (position : Int))) = position := by omega
  rw [addressOf, whole, ← UInt16.toNat_inj]
  simp [UInt16.ofInt]
  omega

theorem describes_of_build {element : Element} {position : Nat} {slave : Slave}
    (ended : (build element position).result = .ok slave) :
    slave.Describes (element, position) := by
  obtain ⟨increment, readIncrement, ended⟩ := Traced.bind_result_eq_ok ended
  obtain ⟨vendor, readVendor, ended⟩ := Traced.bind_result_eq_ok ended
  obtain ⟨product, readProduct, ended⟩ := Traced.bind_result_eq_ok ended
  obtain ⟨revision, readRevision, ended⟩ := Traced.bind_result_eq_ok ended
  obtain ⟨commands, built, ended⟩ := Traced.bind_result_eq_ok ended
  obtain ⟨-, -, ended⟩ := Traced.bind_result_eq_ok ended
  cases ended
  constructor
  -- The default increment is the one that leads back to the position.
  · rcases number?_of_readOptionalInt ["Info", "AutoIncAddr"] (by decide) readIncrement with
      ⟨none, rfl⟩ | given
    · rw [address?, none, addressOf_position]
    · have some : element.under ["Info", "AutoIncAddr"] ≠ [] := by
        intro none
        rw [number?, none] at given
        cases given
      rw [address?, given]
      split
      · contradiction
      · rfl
  · rw [number?_of_readInt ["Info", "VendorId"] (by decide) readVendor]
    rfl
  · rw [number?_of_readInt ["Info", "ProductCode"] (by decide) readProduct]
    rfl
  · rw [number?_of_readInt ["Info", "RevisionNo"] (by decide) readRevision]
    rfl
  · have described := Command.describes_of_reduceOption (Traced.forall₂_of_mapM built)
    rw [descendants_eq ["Mailbox", "CoE", "InitCmds", "InitCmd"] (by decide)]
      at described
    exact described

end Slave

namespace Configuration

/-- The slaves below an element with their positions, which count from one. -/
def sources (element : Element) : List (Element × Nat) :=
  (element.under ["Slave"]).zipIdx 1

/-- The names along the path from a root to the configuration. -/
def namesFrom (root : String) : List String :=
  if root = "EtherCATConfig" then ["Config"] else ["EtherCATConfig", "Config"]

theorem steps_pathFrom (root : String) : steps (pathFrom root) = namesFrom root := by
  unfold pathFrom namesFrom rootName
  split <;> decide

/-- The slaves of a configuration are those below the element that it is built from. -/
theorem describes_of_build {element : Element} {configuration : Configuration}
    (ended : (build element).result = .ok configuration) :
    List.Forall₂ Slave.Describes (sources element) configuration.slaves := by
  obtain ⟨slaves, built, ended⟩ := Traced.bind_result_eq_ok ended
  cases ended
  rw [descendants_eq ["Slave"] (by decide)] at built
  exact (Traced.forall₂_of_mapM built).imp fun source slave => Slave.describes_of_build

theorem describes_of_buildFromContent {parser : Xml.Parser} {content : List UInt8}
    {configuration : Configuration}
    (ended : (buildFromContent parser content).result = .ok configuration) :
    ∃ root element, Element.ofContent parser content = .ok root ∧
      root.under (namesFrom root.name) = [element] ∧
      List.Forall₂ Slave.Describes (sources element) configuration.slaves := by
  obtain ⟨root, read, ended⟩ := Traced.bind_result_eq_ok ended
  obtain ⟨-, -, ended⟩ := Traced.bind_result_eq_ok ended
  obtain ⟨element, found, ended⟩ := Traced.bind_result_eq_ok ended
  exact ⟨root, element, read, under_of_findOne (steps_pathFrom root.name) found,
    describes_of_build ended⟩

end Configuration

end BusTables
