import BusTables.Proofs.Conversion.Complete
import BusTables.Proofs.Emission.References
import Mathlib.Data.List.Sort

/-!
# Names follow addresses

The names of the tables of a slave are made from its address, which the document gives or which is
the position of the slave.  Nothing keeps two slaves from one address, and then they share the
names of their tables and their number in the table of slaves.  This is the only way for a name to
be declared twice, or for the numbers not to ascend strictly (`convert_names`).
-/

namespace BusTables

open Initializer Element Declaration

/-- The names that the items of a file declare. -/
def declaredNames (file : List Item) : List String := file.filterMap Item.name?

/-- The numbers that the blocks in the table of slaves give to the slaves. -/
def slaveNumbers (file : List Item) : List Nat :=
  ((declarationsOf file "eniSlave").flatMap Item.children).filterMap fun block =>
    (block.field? "Slave").bind fun text => Text.decimal? text.toList

namespace Configuration

variable (configuration : Configuration)

theorem declaredNames_items :
    declaredNames configuration.items = configuration.declarations.map Declaration.name := by
  have named : Item.name? ∘ Declaration.item = some ∘ Declaration.name :=
    funext name?_outlined
  rw [declaredNames, items, List.filterMap_map, named, List.filterMap_eq_map]

/-- The names of tables of slaves are not the name of the table of slaves. -/
theorem declarationsOf_items_slaves :
    declarationsOf configuration.items "eniSlave" =
      configuration.slavesDeclaration?.toList.map Declaration.item := by
  have named : ((fun item : Item => item.name? == some "eniSlave") ∘ Declaration.item) =
      fun declaration => declaration.name == slavesName := by
    funext declaration
    change (declaration.outlined.name? == _) = _
    rw [name?_outlined]
    rfl
  have none : (configuration.busy.flatMap Slave.declarations).filter (·.name == slavesName) =
      [] := by
    refine List.filter_eq_nil_iff.mpr fun declaration member same => ?_
    obtain ⟨slave, -, declared⟩ := List.mem_flatMap.mp member
    have ofSlave := slave.names_sublist.subset (List.mem_map_of_mem declared)
    rw [beq_iff_eq.mp same] at ofSlave
    exact shared_not_mem_slaveNames List.mem_cons_self slave.address ofSlave
  rw [declarationsOf, items, List.filter_map, named, declarations_eq, List.filter_append, none,
    List.nil_append, shared]
  cases table : configuration.slavesDeclaration? with
  | none => rfl
  | some declaration =>
      obtain ⟨rfl, -⟩ := slavesDeclaration?_eq_some table
      rfl

theorem slaveNumbers_items :
    slaveNumbers configuration.items =
      (configuration.busy.map Slave.address).map UInt16.toNat := by
  have number (slave : Slave) :
      (((slaveItem slave).field? "Slave").bind fun text => Text.decimal? text.toList) =
        some slave.address.toNat := by
    rw [field?_slaveItem slave (by decide)]
    exact Text.decimal?_toString slave.address.toNat
  rw [slaveNumbers, declarationsOf_items_slaves, List.map_map]
  cases table : configuration.slavesDeclaration? with
  | none =>
      rw [slavesDeclaration?_eq_none table]
      rfl
  | some declaration =>
      obtain ⟨rfl, -⟩ := slavesDeclaration?_eq_some table
      change (configuration.busy.map slaveItem ++ []).filterMap _ = _
      rw [List.append_nil, List.filterMap_map, ← List.filterMap_eq_map]
      exact congrArg (List.filterMap · configuration.busy) (funext number)

theorem slaveNumbers_ascending : (slaveNumbers configuration.items).Pairwise (· ≤ ·) := by
  rw [slaveNumbers_items, busy_eq, List.map_map, List.pairwise_map]
  exact pairwise_mergeSort_byKey Slave.address _

theorem distinct_iff :
    configuration.Distinct ↔ (configuration.busy.map Slave.address).Nodup := by
  rw [busy_eq]
  exact ((List.mergeSort_perm _ _).map Slave.address).nodup_iff.symm

theorem slaveNumbers_strictly_iff :
    (slaveNumbers configuration.items).Pairwise (· < ·) ↔ configuration.Distinct := by
  have injective : Function.Injective UInt16.toNat := fun _ _ => UInt16.toNat_inj.mp
  have ascending := configuration.slaveNumbers_ascending.sortedLE
  rw [← List.sortedLT_iff_pairwise, List.sortedLT_iff_nodup_and_sortedLE,
    and_iff_left ascending, slaveNumbers_items, List.nodup_map_iff injective, distinct_iff]

/-- Each slave that has commands declares a name made from its address. -/
theorem commandsNames_sublist :
    ((configuration.busy.map Slave.address).map commandsName).Sublist
      (configuration.declarations.map Declaration.name) := by
  rw [declarations_eq, List.map_append, List.map_flatMap, List.map_map, List.map_eq_flatMap]
  refine (List.Sublist.flatMap_right _ fun slave _ => ?_).trans (List.sublist_append_left _ _)
  rw [Slave.declarations, List.map_append]
  exact List.sublist_append_right _ _

theorem nodup_declaredNames_iff :
    (declaredNames configuration.items).Nodup ↔ configuration.Distinct := by
  rw [declaredNames_items]
  constructor
  · intro names
    exact configuration.distinct_iff.mpr (names.sublist configuration.commandsNames_sublist).of_map
  · exact nodup_names

end Configuration

/-- The slaves below an element that have enabled commands have different addresses. -/
def AddressesDistinct (element : Element) : Prop :=
  ((qualifying element).map fun source => source.1.address? source.2).Nodup

/-- A file numbers the slaves below an element by their addresses, and its names and numbers are
different if and only if the addresses are. -/
structure FollowsAddresses (element : Element) (file : List Item) : Prop where
  numbered : ((slaveNumbers file).map some).Perm
    ((qualifying element).map fun source => (source.1.address? source.2).map UInt16.toNat)
  ascending : (slaveNumbers file).Pairwise (· ≤ ·)
  strictly : (slaveNumbers file).Pairwise (· < ·) ↔ AddressesDistinct element
  names : (declaredNames file).Nodup ↔ AddressesDistinct element

theorem addresses_of_describes {sources : List (Element × Nat)} {slaves : List Slave}
    (described : List.Forall₂ Slave.Describes sources slaves) :
    sources.map (fun source => source.1.address? source.2) =
      (slaves.map Slave.address).map some := by
  induction described with
  | nil => rfl
  | cons first _ ih => rw [List.map_cons, List.map_cons, List.map_cons, first.address, ih]

theorem followsAddresses {element : Element} {configuration : Configuration}
    (described : List.Forall₂ Slave.Describes (Configuration.sources element)
      configuration.slaves) : FollowsAddresses element configuration.items := by
  obtain ⟨chosen, arranged, same⟩ := exists_arranged described
  have perm := arranged.perm.map fun source => source.1.address? source.2
  rw [addresses_of_describes same] at perm
  -- The slaves that are declared are those that qualify, in another order.
  have distinct : AddressesDistinct element ↔ configuration.Distinct := by
    rw [configuration.distinct_iff, ← List.nodup_map_iff (Option.some_injective UInt16)]
    exact perm.nodup_iff.symm
  refine ⟨?_, configuration.slaveNumbers_ascending, ?_, ?_⟩
  · have mapped := perm.map (Option.map UInt16.toNat)
    rw [configuration.slaveNumbers_items]
    simpa only [qualifying, List.map_map, Function.comp_def, Option.map_some] using mapped
  · rw [distinct, configuration.slaveNumbers_strictly_iff]
  · rw [distinct, configuration.nodup_declaredNames_iff]

/-- Whether names are declared twice for a document hangs on the addresses of its slaves alone. -/
theorem convert_names {parser : Xml.Parser} {header : String} {capacity : Capacity}
    {content : List UInt8}
    (accepted : (convert parser header capacity content).result = .ok ()) :
    ∃ root element configuration, Element.ofContent parser content = .ok root ∧
      root.under (Configuration.namesFrom root.name) = [element] ∧
      (Configuration.buildFromContent parser content).result = .ok configuration ∧
      (convert parser header capacity content).written =
        Text.bytes (Emission.inclusionLine header ++
          layoutFile Emission.columns configuration.items) ∧
      FollowsAddresses element configuration.items := by
  obtain ⟨configuration, built, written⟩ := configuration_of_convert accepted
  obtain ⟨root, element, read, found, described⟩ :=
    Configuration.describes_of_buildFromContent built
  rw [Emission.text_eq] at written
  exact ⟨root, element, configuration, read, found, built, written, followsAddresses described⟩

/-- A slave with one command, as it is written, with what addresses it. -/
def slaveText (addressed : List Char) : List Char :=
  tagged "Slave" (
    tagged "Info" (addressed ++ tagged "VendorId" ['2'] ++ tagged "ProductCode" ['1'] ++
      tagged "RevisionNo" ['3']) ++
    tagged "Mailbox" (tagged "CoE" (tagged "InitCmds" (tagged "InitCmd" (
      tagged "Transition" ['P', 'S'] ++ tagged "Ccs" ['1'] ++ tagged "Index" ['2'] ++
        tagged "SubIndex" ['0'] ++ tagged "Timeout" ['5'] ++ tagged "Data" ['0', 'a'])))))

/-- A document with a slave that has an increment and a slave that has none. -/
def twoSlaves (increment : List Char) : List UInt8 :=
  Text.bytesOf (tagged "EtherCATConfig" (tagged "Config"
    (slaveText (tagged "AutoIncAddr" increment) ++ slaveText [])))

/-- The first slave has the address 5, and the second one that of its position. -/
theorem convert_names_apart :
    (convert .standard "ecat.h" none (twoSlaves ['-', '4'])).result = .ok () ∧
      (convert .standard "ecat.h" none (twoSlaves ['-', '4'])).written =
        Text.bytes (Emission.text "ecat.h" ⟨[oneSlave 5, oneSlave 2]⟩) ∧
      ∃ root element configuration, Element.ofContent .standard (twoSlaves ['-', '4']) = .ok root ∧
        root.under (Configuration.namesFrom root.name) = [element] ∧
        (Configuration.buildFromContent .standard (twoSlaves ['-', '4'])).result =
          .ok configuration ∧
        (convert .standard "ecat.h" none (twoSlaves ['-', '4'])).written =
          Text.bytes (Emission.inclusionLine "ecat.h" ++
            layoutFile Emission.columns configuration.items) ∧
        FollowsAddresses element configuration.items := by
  have passed : (Xml.eventsWithin? 2000 (twoSlaves ['-', '4'])).any (fun events =>
      (Element.ofEvents events).toOption.any fun root => decide
        ((Configuration.buildFromRoot root).result = .ok ⟨[oneSlave 5, oneSlave 2]⟩)) = true := by
    decide +kernel
  obtain ⟨accepted, written⟩ := convert_of_built "ecat.h" (result_of_eventsWithin? passed)
  exact ⟨accepted, written, convert_names accepted⟩

/-- Both slaves have the address 2. -/
theorem convert_names_shared :
    (convert .standard "ecat.h" none (twoSlaves ['-', '1'])).result = .ok () ∧
      (convert .standard "ecat.h" none (twoSlaves ['-', '1'])).written =
        Text.bytes (Emission.inclusionLine "ecat.h" ++ layoutFile Emission.columns
          (Configuration.items ⟨[oneSlave 2, oneSlave 2]⟩)) ∧
      ¬(declaredNames (Configuration.items ⟨[oneSlave 2, oneSlave 2]⟩)).Nodup ∧
      ¬(slaveNumbers (Configuration.items ⟨[oneSlave 2, oneSlave 2]⟩)).Pairwise (· < ·) := by
  have passed : (Xml.eventsWithin? 2000 (twoSlaves ['-', '1'])).any (fun events =>
      (Element.ofEvents events).toOption.any fun root => decide
        ((Configuration.buildFromRoot root).result = .ok ⟨[oneSlave 2, oneSlave 2]⟩)) = true := by
    decide +kernel
  obtain ⟨accepted, written⟩ := convert_of_built "ecat.h" (result_of_eventsWithin? passed)
  rw [Emission.text_eq] at written
  have shared : ¬Configuration.Distinct ⟨[oneSlave 2, oneSlave 2]⟩ := by decide
  exact ⟨accepted, written, mt (Configuration.nodup_declaredNames_iff _).mp shared,
    mt (Configuration.slaveNumbers_strictly_iff _).mp shared⟩

end BusTables
