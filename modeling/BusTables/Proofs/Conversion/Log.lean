import BusTables.Proofs.Configuration.Reports
import BusTables.Proofs.Conversion.Addresses
import BusTables.Proofs.Emission.Order

/-!
# The log tells what was converted

A document is read in its order, and tables are written by ascending address.  So the log of a
conversion has two parts: what is left out and read, in document order, and what is declared and
passed over, as it is written.  Each entry stands for something in the document or in the file
that is written, and there is one for each (`convert_reports`).
-/

namespace BusTables

open Initializer Element Declaration

/-- What is logged of messages up to a level of detail. -/
def logged (limit : Level) (messages : List Message) : List (Level × String) :=
  (messages.filter (·.isReported (some limit))).map Message.entry

/-- An entry announces a table with the name and the length that it declares. -/
def Announces (entry : Level × String) (table : Item) : Prop :=
  ∃ name length, table.name? = some name ∧ table.length? = some length ∧
    entry = (.trace, "Emitting " ++ name ++ s!"[{length}]")

/-- An entry announces the record with the number of slaves that it holds. -/
def AnnouncesRecord (entry : Level × String) (record : Item) : Prop :=
  ∃ count, record.name? = some "ec_eni" ∧ record.field? "slavecount" = some count ∧
    entry = (.trace, "Emitting ec_eni with " ++ count ++ " slave(s)")

/-- Entries announce the items of a file in their order, the record last. -/
def Announced (file : List Item) (entries : List (Level × String)) : Prop :=
  ∃ tables record announced last, file = tables ++ [record] ∧ entries = announced ++ [last] ∧
    List.Forall₂ Announces announced tables ∧ AnnouncesRecord last record

/-- The entry for a slave at an address that is left out. -/
def idleEntry (address : UInt16) : Level × String :=
  (.info, s!"Slave {address.toNat} has no CoE init commands; leaving it out of the slave table")

/-- A log tells of each command that is left out, of each slave that is listed or left out, of
what has been read, and of what has been declared. -/
structure LogTells (element : Element) (configuration : Configuration) (file : List Item)
    (log : List (Level × String)) : Prop where
  declared : Announced file (log.filter Topic.declared.isOf)
  disabled : (log.filter Topic.disabled.isOf).map some =
    ((element.under ["Slave", "Mailbox", "CoE", "InitCmds", "InitCmd"]).filter saysDisabled).map
      fun command => (command.text? ["Comment"]).map fun comment =>
        (.info, "Skipping disabled CoE init command '" ++ Text.trim comment ++ "'")
  listed : ∃ chosen, Arranged chosen (qualifying element) ∧
    (slaveNumbers file).map some =
      chosen.map fun source => (source.1.address? source.2).map UInt16.toNat
  idle : ∃ passed, Arranged passed
      ((Configuration.sources element).filter fun source => source.1.enabledCommands.isEmpty) ∧
    (log.filter Topic.idle.isOf).map some =
      passed.map fun source => (source.1.address? source.2).map idleEntry
  read : log.filter Topic.read.isOf =
    ((Configuration.sources element).zip configuration.slaves).flatMap fun pair =>
      pair.2.commands.map (fun command => (.debug, Message.commandText command)) ++
        [(.debug, Message.slaveText pair.2 pair.1.2)]

/-- On the most detailed level every message is logged. -/
theorem logged_trace (messages : List Message) :
    logged .trace messages = messages.map Message.entry := by
  have every : ∀ message ∈ messages, message.isReported (some .trace) = true := by
    intro message _
    unfold Message.isReported Message.level
    cases message <;> rfl
  rw [logged, List.filter_eq_self.mpr every]

theorem filter_logged (topic : Topic) (messages : List Message) :
    (logged .trace messages).filter topic.isOf = (topic.among messages).map Message.entry := by
  rw [logged_trace, topic.filter_entries]

namespace Step

/-- The address of a slave that is passed over. -/
def passed? : Step → Option UInt16
  | .pass address => some address
  | .declare _ => none

/-- The messages of steps about something are those that each step has about it. -/
theorem among_eq {α : Type} {topic : Topic} {told? : Step → Option α} {say : α → Message}
    (each : ∀ step : Step, topic.among [step.message] = (told? step).toList.map say)
    (steps : List Step) : topic.among (steps.map message) = (steps.filterMap told?).map say := by
  induction steps with
  | nil => rfl
  | cons step later ih =>
      rw [List.map_cons, ← List.singleton_append, Topic.among_append, each, ih,
        List.filterMap_cons]
      cases told? step <;> rfl

theorem declared_among (steps : List Step) :
    Topic.declared.among (steps.map message) =
      (steps.filterMap declaration?).map .declaring :=
  among_eq (fun step => by cases step <;> rfl) steps

theorem idle_among (steps : List Step) :
    Topic.idle.among (steps.map message) = (steps.filterMap passed?).map .idle :=
  among_eq (fun step => by cases step <;> rfl) steps

/-- A step is about nothing but what is declared and passed over. -/
theorem among_eq_nil {topic : Topic} (passed : topic ≠ .idle) (declared : topic ≠ .declared)
    (steps : List Step) : topic.among (steps.map message) = [] := by
  refine List.filter_eq_nil_iff.mpr fun other member => ?_
  obtain ⟨step, -, rfl⟩ := List.mem_map.mp member
  rw [beq_iff_eq]
  cases step with
  | pass address => exact passed.symm
  | declare declaration => exact declared.symm

/-- What is declared is not passed over. -/
theorem passed_declare (declarations : List Declaration) :
    (declarations.map declare).filterMap passed? = [] := by
  rw [List.filterMap_map]
  exact List.filterMap_eq_nil_iff.mpr fun _ _ => rfl

end Step

theorem Slave.passed_steps (slave : Slave) :
    slave.steps.filterMap Step.passed? = if slave.isIdle then [slave.address] else [] := by
  unfold steps
  split
  · rfl
  · rw [List.filterMap_append, Step.passed_declare]
    rfl

/-- Whatever has the header of a table is announced by the message about the table. -/
theorem announces_of_headed {declaration : Declaration} {item : Item}
    (headed : item.header? = some declaration.header) (table : declaration.isRoot = false) :
    Announces (Message.declaring declaration).entry item := by
  refine ⟨declaration.name, declaration.length, ?_, ?_, ?_⟩
  · rw [Item.name?, headed]
    exact name?_outlined declaration
  · rw [Item.length?, headed]
    exact length?_outlined declaration table
  · cases declaration with
    | root => cases table
    | bytes | commands | slaves => rfl

theorem announcesRecord (count : Nat) :
    AnnouncesRecord (Message.declaring (.root count)).entry (root count).outlined :=
  ⟨toString count, name?_outlined _, field?_root count (by decide), rfl⟩

namespace Configuration

theorem passed_plan (configuration : Configuration) :
    configuration.plan.filterMap Step.passed? =
      (configuration.sorted.filter Slave.isIdle).map Slave.address := by
  have slaves (all : List Slave) : (all.flatMap Slave.steps).filterMap Step.passed? =
      (all.filter Slave.isIdle).map Slave.address := by
    induction all with
    | nil => rfl
    | cons slave later ih =>
        rw [List.flatMap_cons, List.filterMap_append, slave.passed_steps, ih, List.filter_cons]
        cases slave.isIdle <;> rfl
  rw [plan, List.filterMap_append, List.filterMap_append, slaves, Step.passed_declare,
    List.nil_append]
  exact List.append_nil _

/-- What is declared before the record. -/
def tables (configuration : Configuration) : List Declaration :=
  configuration.busy.flatMap Slave.declarations ++ configuration.slavesDeclaration?.toList

theorem declarations_eq_tables (configuration : Configuration) :
    configuration.declarations = configuration.tables ++ [.root configuration.busy.length] := by
  rw [declarations_eq, shared, tables, List.append_assoc]

theorem isRoot_of_mem_tables {configuration : Configuration} {declaration : Declaration}
    (member : declaration ∈ configuration.tables) : declaration.isRoot = false := by
  rcases List.mem_append.mp member with ofSlave | table
  · obtain ⟨slave, -, declared⟩ := List.mem_flatMap.mp ofSlave
    rcases List.mem_append.mp declared with bytes | commands
    · obtain ⟨rfl, -⟩ := Slave.bytesDeclaration?_eq_some (Option.mem_toList.mp bytes)
      rfl
    · rw [List.mem_singleton.mp commands]
      rfl
  · obtain ⟨rfl, -⟩ := slavesDeclaration?_eq_some (Option.mem_toList.mp table)
    rfl

/-- The declarations are announced, however they are shown as items with their headers. -/
theorem announced_declarations (configuration : Configuration) {shown : Declaration → Item}
    (headed : ∀ declaration, (shown declaration).header? = some declaration.header)
    (last : ∀ count, shown (.root count) = (root count).outlined) :
    Announced (configuration.declarations.map shown)
      ((configuration.declarations.map .declaring).map Message.entry) := by
  rw [declarations_eq_tables, List.map_append, List.map_append, List.map_append]
  refine ⟨_, _, _, _, rfl, rfl, ?_, ?_⟩
  · rw [List.forall₂_map_left_iff, List.forall₂_map_left_iff, List.forall₂_map_right_iff,
      List.forall₂_same]
    exact fun declaration member =>
      announces_of_headed (headed declaration) (isRoot_of_mem_tables member)
  · rw [last]
    exact announcesRecord _

end Configuration

theorem messages_of_convert {parser : Xml.Parser} {header : String} {capacity : Capacity}
    {content : List UInt8} {configuration : Configuration}
    (accepted : (convert parser header capacity content).result = .ok ())
    (built : (Configuration.buildFromContent parser content).result = .ok configuration) :
    (convert parser header capacity content).messages =
      (Configuration.buildFromContent parser content).messages ++
        configuration.plan.map Step.message := by
  unfold convert at accepted ⊢
  dsimp only at accepted ⊢
  rw [built] at accepted ⊢
  rw [← Emission.messages_parts header, ← messages_of_deliver accepted]
  rfl

/-- The slaves that are passed over are those without commands, by ascending address. -/
theorem exists_passed {sources : List (Element × Nat)} {configuration : Configuration}
    (described : List.Forall₂ Slave.Describes sources configuration.slaves) :
    ∃ passed, Arranged passed (sources.filter fun source => source.1.enabledCommands.isEmpty) ∧
      (configuration.plan.filterMap Step.passed?).map some =
        passed.map fun source => source.1.address? source.2 := by
  obtain ⟨chosen, arranged, same⟩ := exists_arranged_sorted described
  have idle : List.Forall₂ Slave.Describes
      (chosen.filter fun source => source.1.enabledCommands.isEmpty)
      (configuration.sorted.filter Slave.isIdle) := by
    refine List.rel_filter (fun source slave related => ?_) same
    simp only [isIdle_eq related]
  refine ⟨_, arranged.filter _, ?_⟩
  rw [configuration.passed_plan, addresses_of_describes idle]

theorem logTells {element : Element} {configuration : Configuration} {before : List Message}
    (described : List.Forall₂ Slave.Describes (Configuration.sources element)
      configuration.slaves)
    (tells : Tells
      ((element.under ["Slave", "Mailbox", "CoE", "InitCmds", "InitCmd"]).filter saysDisabled)
      (((Configuration.sources element).zip configuration.slaves).flatMap fun pair =>
        pair.2.reading pair.1.2) before) :
    LogTells element configuration configuration.items
      (logged .trace (before ++ configuration.plan.map Step.message)) where
  declared := by
    rw [filter_logged, Topic.among_append, tells.declared, List.nil_append, Step.declared_among]
    exact configuration.announced_declarations (fun _ => rfl) fun _ => rfl
  disabled := by
    have entries := congrArg (List.map (Option.map Message.entry)) tells.disabled
    rw [filter_logged, Topic.among_append, Step.among_eq_nil (by decide) (by decide),
      List.append_nil]
    simp only [List.map_map, Function.comp_def, Option.map_some, Option.map_map] at entries ⊢
    exact entries
  listed := by
    obtain ⟨chosen, arranged, same⟩ := exists_arranged described
    refine ⟨chosen, arranged, ?_⟩
    have numbers := congrArg (List.map (Option.map UInt16.toNat)) (addresses_of_describes same)
    rw [configuration.slaveNumbers_items]
    simpa only [List.map_map, Function.comp_def, Option.map_some] using numbers.symm
  idle := by
    obtain ⟨passed, arranged, same⟩ := exists_passed described
    refine ⟨passed, arranged, ?_⟩
    have entries := congrArg (List.map (Option.map idleEntry)) same
    rw [filter_logged, Topic.among_append, tells.idle, List.nil_append, Step.idle_among]
    simp only [List.map_map, Function.comp_def, Option.map_some] at entries ⊢
    exact entries
  read := by
    rw [filter_logged, Topic.among_append, tells.read, Step.among_eq_nil (by decide) (by decide),
      List.append_nil, List.map_flatMap]
    simp only [Slave.reading, List.map_append, List.map_map, List.map_singleton]
    rfl

/-- What was reported of a document tells what was written for it: of the items that are laid out,
and of those that are read back as long as no name of a transition holds a line end. -/
def DocumentLogged (parser : Xml.Parser) (header : String) (content : List UInt8)
    (delivery : Delivery) : Prop :=
  ∃ root element configuration, Element.ofContent parser content = .ok root ∧
    root.under (Configuration.namesFrom root.name) = [element] ∧
    (Configuration.buildFromContent parser content).result = .ok configuration ∧
    List.Forall₂ Slave.Describes (Configuration.sources element) configuration.slaves ∧
    delivery.written = Text.bytes (Emission.inclusionLine header ++
      layoutFile Emission.columns configuration.items) ∧
    LogTells element configuration configuration.items (logged .trace delivery.messages) ∧
    (TransitionsUnbroken element → ∃ file,
      readItems? (layoutFile Emission.columns configuration.items).toList = some file ∧
        Announced file ((logged .trace delivery.messages).filter Topic.declared.isOf))

/-- The log of a document that is accepted tells exactly what was converted. -/
theorem convert_reports {parser : Xml.Parser} {header : String} {capacity : Capacity}
    {content : List UInt8}
    (accepted : (convert parser header capacity content).result = .ok ()) :
    DocumentLogged parser header content (convert parser header capacity content) := by
  obtain ⟨configuration, built, written⟩ := configuration_of_convert accepted
  obtain ⟨root, element, read, found, described, tells⟩ :=
    Configuration.tells_of_buildFromContent built
  have told := logTells described tells
  rw [← messages_of_convert accepted built] at told
  rw [Emission.text_eq] at written
  refine ⟨root, element, configuration, read, found, built, described, written, told,
    fun unbroken => ⟨_, Emission.read_text (unbroken_of_describes described unbroken), ?_⟩⟩
  -- What is read back has the headers of what was laid out, and these are what is announced.
  rw [messages_of_convert accepted built, filter_logged, Topic.among_append, tells.declared,
    List.nil_append, Step.declared_among]
  exact configuration.announced_declarations (fun _ => rfl) fun _ => rfl

/-- A document with a slave that has a command, and a slave whose only command is disabled. -/
def disabledSecond : List UInt8 :=
  Text.bytesOf (tagged "EtherCATConfig" (tagged "Config" (slaveText [] ++ tagged "Slave" (
    tagged "Info" (tagged "VendorId" ['2'] ++ tagged "ProductCode" ['1'] ++
      tagged "RevisionNo" ['3']) ++
    tagged "Mailbox" (tagged "CoE" (tagged "InitCmds" (tagged "InitCmd" (
      tagged "Comment" ['o', 'f', 'f'] ++ tagged "Disabled" ['1']))))))))

/-- What is reported while the document is read. -/
def disabledSecondReading : List Message :=
  [.rooted "EtherCATConfig" "Config", .commandRead ⟨"", ["PS"], false, 1, 2, 0, 5000, [10]⟩,
    .slaveRead (oneSlave 1) 1, .disabled "off", .slaveRead ⟨2, 2, 1, 3, []⟩ 2]

/-- What is logged of the document, from its root to the record. -/
def disabledSecondLog : List (Level × String) :=
  [(.debug, "Document root is <EtherCATConfig>, reading Config"),
    (.debug, "CoE command 0x0002:0 ccs 1 on PS, 1 data byte(s)"),
    (.debug, "Slave 1 (position 1): vendor 0x00000002, product 0x00000001, " ++
      "revision 0x00000003, 1 CoE command(s)"),
    (.info, "Skipping disabled CoE init command 'off'"),
    (.debug, "Slave 2 (position 2): vendor 0x00000002, product 0x00000001, " ++
      "revision 0x00000003, 0 CoE command(s)"),
    (.trace, "Emitting s1_coeData[1]"), (.trace, "Emitting s1_coeCmds[1]"),
    (.info, "Slave 2 has no CoE init commands; leaving it out of the slave table"),
    (.trace, "Emitting eniSlave[1]"), (.trace, "Emitting ec_eni with 1 slave(s)")]

/-- Each entry of the log is accounted for, and one table is written. -/
theorem convert_reports_disabledSecond :
    (convert .standard "ecat.h" none disabledSecond).result = .ok () ∧
      (convert .standard "ecat.h" none disabledSecond).written = Text.bytes oneSlaveText ∧
      logged .trace (convert .standard "ecat.h" none disabledSecond).messages =
        disabledSecondLog ∧
      DocumentLogged .standard "ecat.h" disabledSecond
        (convert .standard "ecat.h" none disabledSecond) := by
  have passed : (Xml.eventsWithin? 2000 disabledSecond).any (fun events =>
      (Element.ofEvents events).toOption.any fun root =>
        decide ((Configuration.buildFromRoot root).result =
            .ok ⟨[oneSlave 1, ⟨2, 2, 1, 3, []⟩]⟩) &&
          decide ((Configuration.buildFromRoot root).messages = disabledSecondReading)) = true := by
    decide +kernel
  obtain ⟨root, read, tested⟩ := Element.exists_root passed
  rw [Bool.and_eq_true, decide_eq_true_eq, decide_eq_true_eq] at tested
  obtain ⟨built, reported⟩ := tested
  rw [← buildFromContent_of_read read] at built reported
  obtain ⟨accepted, written⟩ := convert_of_built "ecat.h" built
  have sorted : Configuration.sorted ⟨[oneSlave 1, ⟨2, 2, 1, 3, []⟩]⟩ =
      [oneSlave 1, ⟨2, 2, 1, 3, []⟩] :=
    List.mergeSort_of_pairwise (by decide)
  refine ⟨accepted, ?_, ?_, convert_reports accepted⟩
  · have busy : Configuration.busy ⟨[oneSlave 1, ⟨2, 2, 1, 3, []⟩]⟩ =
        Configuration.busy ⟨[oneSlave 1]⟩ := by
      rw [Configuration.busy_eq, Configuration.busy_eq]
      rfl
    rw [written, Emission.text_of_busy busy, text_oneSlave]
  · rw [messages_of_convert accepted built, reported, Configuration.plan,
      Configuration.slavesDeclaration?, Configuration.busy, sorted]
    decide +kernel

end BusTables
