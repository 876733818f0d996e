import BusTables.Proofs.Configuration.Order
import BusTables.Proofs.Conversion.Capacity
import BusTables.Proofs.Conversion.Shown
import BusTables.Proofs.Xml.Bounded

/-!
# A conversion loses nothing

What is written for a document can be read back, and it shows exactly the slaves of the document
that have commands (`convert_complete`).  The slaves are followed as pairs of an element and the
slave built from it: pairs are sorted as slaves are (`exists_arranged_sorted`), so that each table
is found to belong to the element at its place.
-/

namespace BusTables

open Initializer Element Declaration

/-- The slaves below an element that have commands which are not disabled. -/
def qualifying (element : Element) : List (Element × Nat) :=
  (Configuration.sources element).filter fun source => !source.1.enabledCommands.isEmpty

/-- Slaves are sorted by their addresses, and those of one address keep their order. -/
structure Arranged (chosen given : List (Element × Nat)) : Prop where
  perm : chosen.Perm given
  addressed : ∀ source ∈ chosen, (source.1.address? source.2).isSome
  ascending : chosen.Pairwise fun first second =>
    ∀ low ∈ first.1.address? first.2, ∀ high ∈ second.1.address? second.2, low ≤ high
  stable : ∀ address : UInt16,
    chosen.filter (fun source => source.1.address? source.2 == some address) =
      given.filter fun source => source.1.address? source.2 == some address

/-- The record that is declared last. -/
def record (count : Nat) : Item :=
  .block (some "ec_enit ec_eni")
    [.value (".slave = " ++ if count = 0 then "NULL" else "eniSlave"),
      .value (".slavecount = " ++ toString count)]

/-- The table of slaves, unless there are none. -/
def slaveTable (blocks : List Item) : List Item :=
  if blocks = [] then []
  else [.block (some s!"static ec_enislavet eniSlave[{blocks.length}]") blocks]

/-- A file shows the slaves below an element: the tables of each, their blocks, and the record. -/
structure FileShown (element : Element) (file : List Item) (chosen : List (Element × Nat))
    (groups : List (List Item)) (blocks : List Item) : Prop where
  arranged : Arranged chosen (qualifying element)
  tables : List.Forall₂ TablesShown chosen groups
  slaves : List.Forall₂ SlaveShown chosen blocks
  file : file = groups.flatten ++ slaveTable blocks ++ [record blocks.length]

theorem FileShown.file_of_none {element : Element} {file : List Item}
    {chosen : List (Element × Nat)} {groups : List (List Item)} {blocks : List Item}
    (shown : FileShown element file chosen groups blocks) (none : qualifying element = []) :
    file = [record 0] := by
  obtain ⟨arranged, tables, slaves, whole⟩ := shown
  have perm := arranged.perm
  rw [none, List.perm_nil] at perm
  subst perm
  cases tables
  cases slaves
  exact whole

section Pairs

variable {sources : List (Element × Nat)} {slaves : List Slave}

theorem isIdle_eq {source : Element × Nat} {slave : Slave} (described : slave.Describes source) :
    slave.isIdle = source.1.enabledCommands.isEmpty := by
  have count := described.commands.length_eq
  rw [Slave.isIdle, Bool.eq_iff_iff, List.isEmpty_iff, List.isEmpty_iff,
    ← List.length_eq_zero_iff, ← List.length_eq_zero_iff, count]

theorem exists_pairs (described : List.Forall₂ Slave.Describes sources slaves) :
    ∃ pairs : List ((Element × Nat) × Slave), pairs.map Prod.fst = sources ∧
      pairs.map Prod.snd = slaves ∧ ∀ pair ∈ pairs, pair.2.Describes pair.1 := by
  have count := described.length_eq
  refine ⟨sources.zip slaves, List.map_fst_zip (Nat.le_of_eq count),
    List.map_snd_zip (Nat.le_of_eq count.symm), ?_⟩
  rintro ⟨source, slave⟩ member
  exact List.forall₂_zip described member

/-- The elements can be arranged as the slaves that are built from them. -/
theorem exists_arranged_sorted {configuration : Configuration}
    (described : List.Forall₂ Slave.Describes sources configuration.slaves) :
    ∃ chosen, Arranged chosen sources ∧
      List.Forall₂ Slave.Describes chosen configuration.sorted := by
  obtain ⟨pairs, firsts, seconds, related⟩ := exists_pairs described
  let sorted := pairs.mergeSort (byKey fun pair => pair.2.address)
  have inside : ∀ pair ∈ sorted, pair.2.Describes pair.1 := fun pair member =>
    related pair ((List.mergeSort_perm _ _).mem_iff.mp member)
  have slaves : sorted.map Prod.snd = configuration.sorted := by
    rw [Configuration.sorted_eq, ← seconds]
    exact List.map_mergeSort fun _ _ _ _ => rfl
  refine ⟨sorted.map Prod.fst, ?_, ?_⟩
  · rw [← firsts]
    constructor
    · exact (List.mergeSort_perm _ _).map Prod.fst
    · intro source member
      obtain ⟨pair, among, rfl⟩ := List.mem_map.mp member
      rw [(inside pair among).address]
      rfl
    · rw [List.pairwise_map]
      refine (pairwise_mergeSort_byKey _ pairs).imp_of_mem fun first second order => ?_
      intro low isLow high isHigh
      rw [(inside _ first).address] at isLow
      rw [(inside _ second).address] at isHigh
      rw [← Option.some.inj isLow, ← Option.some.inj isHigh]
      exact order
    · intro address
      have same (items : List ((Element × Nat) × Slave))
          (among : ∀ pair ∈ items, pair.2.Describes pair.1) :
          (items.map Prod.fst).filter (fun source => source.1.address? source.2 == some address) =
            (items.filter (·.2.address == address)).map Prod.fst := by
        rw [List.filter_map]
        refine congrArg (List.map Prod.fst) (List.filter_congr fun pair member => ?_)
        simp [(among pair member).address]
      rw [same sorted inside, same pairs related]
      exact congrArg (List.map Prod.fst) (filter_mergeSort_byKey _ pairs address)
  · rw [← slaves, List.forall₂_map_left_iff, List.forall₂_map_right_iff, List.forall₂_same]
    exact inside

/-- What is left of an arrangement is an arrangement of what is left. -/
theorem Arranged.filter {chosen given : List (Element × Nat)} (arranged : Arranged chosen given)
    (test : Element × Nat → Bool) : Arranged (chosen.filter test) (given.filter test) where
  perm := arranged.perm.filter test
  addressed source member := arranged.addressed source (List.mem_of_mem_filter member)
  ascending := arranged.ascending.filter test
  stable address := by
    rw [List.filter_comm, arranged.stable address, List.filter_comm]

theorem exists_arranged {configuration : Configuration}
    (described : List.Forall₂ Slave.Describes sources configuration.slaves) :
    ∃ chosen, Arranged chosen (sources.filter fun source => !source.1.enabledCommands.isEmpty) ∧
      List.Forall₂ Slave.Describes chosen configuration.busy := by
  obtain ⟨chosen, arranged, same⟩ := exists_arranged_sorted described
  refine ⟨_, arranged.filter _, List.rel_filter (fun source slave related => ?_) same⟩
  -- A slave is idle if and only if its element has no command that counts.
  simp only [isIdle_eq related]

end Pairs

theorem flatMap_bytes (texts : List String) :
    texts.flatMap Text.bytes = Text.bytes (String.join texts) := by
  rw [Text.bytes, String.toList_join, Text.bytesOf, List.flatMap_assoc]
  rfl

theorem configuration_of_convert {parser : Xml.Parser} {header : String} {capacity : Capacity}
    {content : List UInt8}
    (accepted : (convert parser header capacity content).result = .ok ()) :
    ∃ configuration,
      (Configuration.buildFromContent parser content).result = .ok configuration ∧
      (convert parser header capacity content).written =
        Text.bytes (Emission.text header configuration) := by
  unfold convert at accepted ⊢
  dsimp only at accepted ⊢
  split at accepted
  · rename_i configuration built
    refine ⟨configuration, built, ?_⟩
    rw [← Emission.join_parts, ← flatMap_bytes]
    exact written_of_deliver accepted
  · cases accepted

theorem outlined_root (count : Nat) : (Declaration.root count).outlined = record count :=
  rfl

theorem outlined_shared (configuration : Configuration) :
    configuration.shared.map outlined =
      slaveTable (configuration.busy.map slaveItem) ++ [record configuration.busy.length] := by
  rw [Configuration.shared, List.map_append, List.map_singleton, outlined_root]
  refine congrArg (· ++ [record configuration.busy.length]) ?_
  cases table : configuration.slavesDeclaration? with
  | none =>
      rw [Configuration.slavesDeclaration?_eq_none table]
      rfl
  | some declaration =>
      obtain ⟨rfl, nonempty⟩ := Configuration.slavesDeclaration?_eq_some table
      have some : configuration.busy.map slaveItem ≠ [] := by simpa using nonempty
      rw [slaveTable, if_neg some, List.length_map, ← header_slaves]
      rfl

/-- The names of the transitions below an element hold no line end, blanks around them apart. -/
def TransitionsUnbroken (element : Element) : Prop :=
  ∀ slave ∈ element.under ["Slave"], ∀ command ∈ slave.enabledCommands,
    ∀ name ∈ command.under ["Transition"], '\n' ∉ (Text.trim name.content).toList
  deriving Decidable

/-- What was written for a document is a line for the preprocessor and a text that is read back
as the slaves of the document that have commands. -/
def DocumentShown (parser : Xml.Parser) (header : String) (content written : List UInt8) : Prop :=
  ∃ root element body file chosen groups blocks,
    Element.ofContent parser content = .ok root ∧
      root.under (Configuration.namesFrom root.name) = [element] ∧
      written = Text.bytes (Emission.inclusionLine header ++ body) ∧
      readItems? body.toList = some file ∧ FileShown element file chosen groups blocks ∧
      (qualifying element = [] → file = [record 0])

theorem exists_of_mem_right {α β : Type} {related : α → β → Prop} {items : List α}
    {others : List β} (all : List.Forall₂ related items others) {other : β}
    (member : other ∈ others) : ∃ item ∈ items, related item other := by
  induction all with
  | nil => cases member
  | cons first _ ih =>
      rcases List.mem_cons.mp member with rfl | later
      · exact ⟨_, List.mem_cons_self, first⟩
      · obtain ⟨item, among, same⟩ := ih later
        exact ⟨item, List.mem_cons_of_mem _ among, same⟩

theorem unbroken_of_describes {element : Element} {configuration : Configuration}
    (described : List.Forall₂ Slave.Describes (Configuration.sources element)
      configuration.slaves) (unbroken : TransitionsUnbroken element) :
    configuration.Unbroken := by
  intro slave given command among name named
  obtain ⟨source, listed, same⟩ := exists_of_mem_right described given
  obtain ⟨origin, enabled, equal⟩ := exists_of_mem_right same.commands among
  rw [← equal.transitions] at named
  obtain ⟨transition, under, rfl⟩ := List.mem_map.mp named
  have slaves := List.fst_mem_of_mem_zipIdx listed
  exact unbroken source.1 slaves origin enabled transition under

/-- Nothing is lost, duplicated or reordered from a document to what is written for it. -/
theorem convert_complete {parser : Xml.Parser} {header : String} {capacity : Capacity}
    {content : List UInt8}
    (accepted : (convert parser header capacity content).result = .ok ())
    (unbroken : ∀ root, Element.ofContent parser content = .ok root →
      ∀ element ∈ root.under (Configuration.namesFrom root.name), TransitionsUnbroken element) :
    DocumentShown parser header content (convert parser header capacity content).written := by
  obtain ⟨configuration, built, written⟩ := configuration_of_convert accepted
  obtain ⟨root, element, read, found, described⟩ :=
    Configuration.describes_of_buildFromContent built
  obtain ⟨chosen, arranged, same⟩ := exists_arranged described
  have whole := unbroken_of_describes described
    (unbroken root read element (found ▸ List.mem_cons_self))
  have shown : FileShown element (configuration.declarations.map outlined) chosen
      (configuration.busy.map fun slave => slave.declarations.map outlined)
      (configuration.busy.map slaveItem) := by
    refine ⟨arranged, ?_, ?_, ?_⟩
    · rw [List.forall₂_map_right_iff]
      exact same.imp fun source slave => tablesShown
    · rw [List.forall₂_map_right_iff]
      exact same.imp fun source slave => slaveShown
    · rw [Configuration.declarations_eq, List.map_append, outlined_shared, List.length_map,
        List.map_flatMap, List.flatMap, List.append_assoc]
  refine ⟨root, element, _, _, chosen, _, _, read, found, ?_, Emission.read_text whole, shown, ?_⟩
  · rw [written, Emission.text_eq]
  · exact shown.file_of_none

theorem buildFromContent_of_read {parser : Xml.Parser} {content : List UInt8} {root : Element}
    (read : Element.ofContent parser content = .ok root) :
    Configuration.buildFromContent parser content = Configuration.buildFromRoot root := by
  rw [Configuration.buildFromContent, read]
  exact pure_bind root Configuration.buildFromRoot

/-- How building ends for a document that is read within a number of steps. -/
theorem result_of_eventsWithin? {steps : Nat} {content : List UInt8}
    {outcome : Except Failure Configuration}
    (passed : (Xml.eventsWithin? steps content).any (fun events =>
      (Element.ofEvents events).toOption.any fun root =>
        decide ((Configuration.buildFromRoot root).result = outcome)) = true) :
    (Configuration.buildFromContent .standard content).result = outcome := by
  obtain ⟨root, read, tested⟩ := Element.exists_root passed
  rw [buildFromContent_of_read read]
  exact of_decide_eq_true tested

/-- A document whose configuration is known is accepted, and the text for it is written. -/
theorem convert_of_built {parser : Xml.Parser} {content : List UInt8}
    {configuration : Configuration} (header : String)
    (built : (Configuration.buildFromContent parser content).result = .ok configuration) :
    (convert parser header none content).result = .ok () ∧
      (convert parser header none content).written =
        Text.bytes (Emission.text header configuration) := by
  have accepted : (convert parser header none content).result = .ok () := by
    simp [convert, built, deliver_none, Delivery.after]
  obtain ⟨other, same, written⟩ := configuration_of_convert accepted
  rw [built] at same
  rw [Except.ok.inj same]
  exact ⟨accepted, written⟩

/-- An element with a name and a content, as it is written. -/
def tagged (name : String) (inner : List Char) : List Char :=
  '<' :: (name.toList ++ '>' :: inner) ++ '<' :: '/' :: (name.toList ++ ['>'])

/-- A document with one slave, which has one command. -/
def oneCommand : List UInt8 :=
  Text.bytesOf (tagged "EtherCATConfig" (tagged "Config" (tagged "Slave" (
    tagged "Info" (tagged "VendorId" ['2'] ++ tagged "ProductCode" ['1'] ++
      tagged "RevisionNo" ['3']) ++
    tagged "Mailbox" (tagged "CoE" (tagged "InitCmds" (tagged "InitCmd" (
      tagged "Transition" ['P', 'S'] ++ tagged "Ccs" ['1'] ++ tagged "Index" ['2'] ++
        tagged "SubIndex" ['0'] ++ tagged "Timeout" ['5'] ++ tagged "Data" ['0', 'a']))))))))

/-- A slave as it is built at an address. -/
def oneSlave (address : UInt16) : Slave :=
  ⟨address, 2, 1, 3, [⟨"", ["PS"], false, 1, 2, 0, 5000, [10]⟩]⟩

/-- What is written for a document with one slave at the address 1. -/
def oneSlaveText : String :=
  "#include \"ecat.h\"\n\nstatic uint8 s1_coeData[1] = \x7b\n   10\n\x7d;\n\n" ++
    "static ec_enicoecmdt s1_coeCmds[1] = \x7b\n   \x7b\n" ++
    "      .Transition = ECT_ESMTRANS_PS,\n      .CA = FALSE,\n      .Ccs = 1,\n" ++
    "      .Index = 0x0002,\n      .SubIdx = 0,\n      .Timeout = 5000,\n      .DataSize = 1,\n" ++
    "      .Data = (s1_coeData + 0)\n   \x7d\n\x7d;\n\n" ++
    "static ec_enislavet eniSlave[1] = \x7b\n   \x7b\n      .Slave = 1,\n      .VendorId = 2,\n" ++
    "      .ProductCode = 1,\n      .RevisionNo = 3,\n      .CoECmds = s1_coeCmds,\n" ++
    "      .CoECmdCount = 1\n   \x7d\n\x7d;\n\n" ++
    "ec_enit ec_eni = \x7b\n   .slave = eniSlave,\n   .slavecount = 1\n\x7d;\n\n"

theorem text_oneSlave : Emission.text "ecat.h" ⟨[oneSlave 1]⟩ = oneSlaveText := by
  decide +kernel

/-- The document with one command is accepted, and its text is shown to be complete. -/
theorem convert_complete_oneCommand :
    (convert .standard "ecat.h" none oneCommand).result = .ok () ∧
      (convert .standard "ecat.h" none oneCommand).written = Text.bytes oneSlaveText ∧
      DocumentShown .standard "ecat.h" oneCommand (Text.bytes oneSlaveText) := by
  have passed : (Xml.eventsWithin? 1000 oneCommand).any (fun events =>
      (Element.ofEvents events).toOption.any fun root =>
        decide ((Configuration.buildFromRoot root).result = .ok ⟨[oneSlave 1]⟩) &&
          decide (∀ element ∈ root.under (Configuration.namesFrom root.name),
            TransitionsUnbroken element)) = true := by
    decide +kernel
  obtain ⟨root, read, tested⟩ := Element.exists_root passed
  rw [Bool.and_eq_true, decide_eq_true_eq, decide_eq_true_eq] at tested
  obtain ⟨built, unbroken⟩ := tested
  rw [← buildFromContent_of_read read] at built
  obtain ⟨accepted, written⟩ := convert_of_built "ecat.h" built
  rw [text_oneSlave] at written
  refine ⟨accepted, written, written ▸ convert_complete accepted fun other same => ?_⟩
  rw [read] at same
  rw [← Except.ok.inj same]
  exact unbroken

end BusTables
