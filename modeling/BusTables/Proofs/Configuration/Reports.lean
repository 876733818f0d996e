import BusTables.Proofs.Configuration.Described
import BusTables.Proofs.Topics

/-!
# What is reported while a document is read

A traversal that ends reports what its steps report (`Traced.messages_of_mapM`).  A command is
reported as left out or as read, and a slave behind its commands.  So both the commands that are
left out and what is read are reported in document order, and nothing is said yet of what is
declared or passed over (`Configuration.tells_of_build`).
-/

namespace BusTables

open Element

namespace Traced

variable {α β : Type}

/-- Two computations that end report their messages in turn. -/
theorem messages_of_bind {first : Traced α} {next : α → Traced β} {value : β}
    (ended : (first >>= next).result = .ok value) :
    ∃ given, first.result = .ok given ∧ (next given).result = .ok value ∧
      (first >>= next).messages = first.messages ++ (next given).messages := by
  obtain ⟨given, start, rest⟩ := bind_result_eq_ok ended
  exact ⟨given, start, rest, messages_bind_of_ok start⟩

/-- What only gives a value adds no messages. -/
theorem messages_of_lift {first : Except Failure α} {next : α → Traced β} {value : β}
    (ended : ((liftM first : Traced α) >>= next).result = .ok value) :
    ∃ given, first = .ok given ∧ (next given).result = .ok value ∧
      ((liftM first : Traced α) >>= next).messages = (next given).messages :=
  messages_of_bind ended

theorem messages_of_mapM {step : α → Traced β} {items : List α} {values : List β}
    (ended : (items.mapM step).result = .ok values) :
    (items.mapM step).messages = items.flatMap fun item => (step item).messages := by
  induction items generalizing values with
  | nil => rfl
  | cons item later ih =>
      rw [List.mapM_cons] at ended ⊢
      obtain ⟨value, first, rest, whole⟩ := messages_of_bind ended
      obtain ⟨others, remaining, -, behind⟩ := messages_of_bind rest
      rw [whole, behind, ih remaining, messages_pure, List.append_nil, List.flatMap_cons]

end Traced

theorem Element.under_append (first later : List String) (element : Element) :
    element.under (first ++ later) = (element.under first).flatMap (under later) := by
  have chain := descend_append_names first later [element]
  simpa only [descend_eq_flatMap, List.flatMap_singleton] using chain

/-- Messages tell of the commands that are left out and of what is read, in this order each, and of
no table. -/
structure Tells (gone : List Element) (read messages : List Message) : Prop where
  disabled : (Topic.disabled.among messages).map some =
    gone.map fun element => (element.text? ["Comment"]).map .disabled
  read : Topic.read.among messages = read
  idle : Topic.idle.among messages = []
  declared : Topic.declared.among messages = []

namespace Tells

theorem nothing : Tells [] [] [] :=
  ⟨rfl, rfl, rfl, rfl⟩

/-- The only message about a command that is left out gives its comment. -/
theorem leaving {element : Element} {comment : String}
    (read : element.text? ["Comment"] = some comment) :
    Tells [element] [] [.disabled comment] := by
  refine ⟨?_, rfl, rfl, rfl⟩
  rw [List.map_singleton, read]
  rfl

theorem reading {message : Message} (about : message.topic = .read) :
    Tells [] [message] [message] := by
  constructor <;> simp [Topic.among, about]

theorem append {gone others : List Element} {read readLater first later : List Message}
    (start : Tells gone read first) (rest : Tells others readLater later) :
    Tells (gone ++ others) (read ++ readLater) (first ++ later) := by
  constructor
  · rw [Topic.among_append, List.map_append, List.map_append, start.disabled, rest.disabled]
  · rw [Topic.among_append, start.read, rest.read]
  · rw [Topic.among_append, start.idle, rest.idle, List.append_nil]
  · rw [Topic.among_append, start.declared, rest.declared, List.append_nil]

/-- The messages of all steps tell of what each of them tells. -/
theorem flatMap {α β : Type} {gone : α → List Element} {read : α → β → List Message}
    {messages : α → List Message} {items : List α} {values : List β}
    (each : List.Forall₂ (fun item value => Tells (gone item) (read item value) (messages item))
      items values) :
    Tells (items.flatMap gone) ((items.zip values).flatMap fun pair => read pair.1 pair.2)
      (items.flatMap messages) := by
  induction each with
  | nil => exact nothing
  | cons first _ ih => exact first.append ih

end Tells

namespace Command

theorem messages_of_build {element : Element} {command : Command}
    (ended : (build element).result = .ok command) :
    (build element).messages = [.commandRead command] := by
  obtain ⟨built, -, rest, same⟩ := Traced.messages_of_lift ended
  cases rest
  exact same

theorem tells_of_buildEnabled {element : Element} {command : Option Command}
    (ended : (buildEnabled element).result = .ok command) :
    Tells ([element].filter saysDisabled) (command.toList.map .commandRead)
      (buildEnabled element).messages := by
  obtain ⟨disabled, said, ended, whole⟩ := Traced.messages_of_lift ended
  rw [List.filter_singleton, disabled_of_isDisabled said, show (buildEnabled element).messages = _
    from whole]
  cases disabled with
  | true =>
      obtain ⟨comment, read, ended, whole⟩ := Traced.messages_of_lift ended
      cases ended
      exact whole ▸ .leaving (text?_of_readOptionalText ["Comment"] (by decide) read)
  | false =>
      obtain ⟨built, read, ended, whole⟩ := Traced.messages_of_bind ended
      cases ended
      rw [messages_of_build read] at whole
      exact whole ▸ .reading rfl

/-- The commands that are left out are reported in order, and so are those that are kept. -/
theorem tells_of_reduceOption {elements : List Element} {commands : List (Option Command)}
    (built : List.Forall₂ (fun element command =>
      (buildEnabled element).result = .ok command) elements commands) :
    Tells (elements.filter saysDisabled) (commands.reduceOption.map .commandRead)
      (elements.flatMap fun element => (buildEnabled element).messages) := by
  induction built with
  | nil => exact .nothing
  | @cons element command later others first _ ih =>
      have both := (tells_of_buildEnabled first).append ih
      rw [← List.filter_append, ← List.map_append] at both
      cases command with
      | none => exact both
      | some command => exact both

end Command

namespace Slave

/-- What is reported when a slave has been read: its commands, and then the slave. -/
def reading (slave : Slave) (position : Int) : List Message :=
  slave.commands.map .commandRead ++ [.slaveRead slave position]

theorem tells_of_build {element : Element} {position : Int} {slave : Slave}
    (ended : (build element position).result = .ok slave) :
    Tells ((element.under ["Mailbox", "CoE", "InitCmds", "InitCmd"]).filter saysDisabled)
      (slave.reading position) (build element position).messages := by
  obtain ⟨increment, -, ended, first⟩ := Traced.messages_of_lift ended
  obtain ⟨vendor, -, ended, second⟩ := Traced.messages_of_lift ended
  obtain ⟨product, -, ended, third⟩ := Traced.messages_of_lift ended
  obtain ⟨revision, -, ended, fourth⟩ := Traced.messages_of_lift ended
  obtain ⟨commands, built, ended, last⟩ := Traced.messages_of_bind ended
  cases ended
  have whole : (build element position).messages = _ :=
    first.trans (second.trans (third.trans (fourth.trans last)))
  have told := Command.tells_of_reduceOption (Traced.forall₂_of_mapM built)
  rw [descendants_eq ["Mailbox", "CoE", "InitCmds", "InitCmd"] (by decide)] at told whole built
  rw [whole, Traced.messages_of_mapM built, ← List.append_nil (List.filter _ _)]
  exact told.append (.reading rfl)

end Slave

namespace Configuration

theorem tells_of_build {element : Element} {configuration : Configuration}
    (ended : (build element).result = .ok configuration) :
    Tells ((element.under ["Slave", "Mailbox", "CoE", "InitCmds", "InitCmd"]).filter saysDisabled)
      (((sources element).zip configuration.slaves).flatMap fun pair => pair.2.reading pair.1.2)
      (build element).messages := by
  obtain ⟨slaves, built, ended, whole⟩ := Traced.messages_of_bind ended
  cases ended
  have all : (sources element).map Prod.fst = element.under ["Slave"] := List.zipIdx_map_fst 1 _
  have gone : (element.under ["Slave", "Mailbox", "CoE", "InitCmds", "InitCmd"]).filter
        saysDisabled = (sources element).flatMap fun source =>
      (source.1.under ["Mailbox", "CoE", "InitCmds", "InitCmd"]).filter saysDisabled := by
    rw [← List.singleton_append, under_append, List.filter_flatMap, ← all, List.flatMap_map]
  rw [gone, show (build element).messages = _ from whole, Traced.messages_of_mapM built,
    Traced.messages_pure, List.append_nil]
  rw [descendants_eq ["Slave"] (by decide)] at built ⊢
  exact .flatMap ((Traced.forall₂_of_mapM built).imp fun source slave => Slave.tells_of_build)

/-- What is reported before tables are written: where the configuration is, and what is read. -/
theorem tells_of_buildFromContent {parser : Xml.Parser} {content : List UInt8}
    {configuration : Configuration}
    (ended : (buildFromContent parser content).result = .ok configuration) :
    ∃ root element, Element.ofContent parser content = .ok root ∧
      root.under (namesFrom root.name) = [element] ∧
      List.Forall₂ Slave.Describes (sources element) configuration.slaves ∧
      Tells ((element.under ["Slave", "Mailbox", "CoE", "InitCmds", "InitCmd"]).filter saysDisabled)
        (((sources element).zip configuration.slaves).flatMap fun pair => pair.2.reading pair.1.2)
        (buildFromContent parser content).messages := by
  obtain ⟨root, read, ended, first⟩ := Traced.messages_of_lift ended
  obtain ⟨-, -, ended, second⟩ := Traced.messages_of_bind ended
  obtain ⟨element, found, ended, third⟩ := Traced.messages_of_lift ended
  refine ⟨root, element, read, under_of_findOne (steps_pathFrom root.name) found,
    describes_of_build ended, ?_⟩
  rw [show (buildFromContent parser content).messages = _ from first.trans second, third]
  obtain ⟨disabled, read, idle, declared⟩ := tells_of_build ended
  -- Where the configuration is belongs to no topic of these.
  exact ⟨disabled, read, idle, declared⟩

end Configuration

end BusTables
