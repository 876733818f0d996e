import BusTables.Proofs.Configuration.Order
import BusTables.Proofs.Declaration.Reference
import BusTables.Proofs.Emission.Pointers
import BusTables.Proofs.Growth

/-!
# References lead to tables

The names in pointers are put together where the pointers are written, and the tables are declared
elsewhere.  As long as no two slaves with commands have one address, each name is that of a single
table, and this table stands above (`text_linked`).

Declarations come one by one, each referring only to those before it (`resolved`).  That there is
only one of each name follows from the addresses (`nodup_names`).
-/

namespace BusTables

open Initializer Declaration

/-- The block of a slave names the table of the commands of that slave and says how long it is. -/
def SlaveLinked (file : List Item) (slave : Slave) (block : Item) : Prop :=
  ∃ name table, block.field? "CoECmds" = some name ∧ declarationsOf file name = [table] ∧
    table.children = (place slave.commands).map (outlinedCommand slave.address) ∧
    block.field? "CoECmdCount" = table.length?.map toString

/-- The record refers to the table of slaves and says how long it is, unless there are none. -/
def RecordLinked (configuration : Configuration) (file : List Item) (record : Item) : Prop :=
  (configuration.busy = [] ∧ record.field? "slave" = some "NULL" ∧
      record.field? "slavecount" = some "0") ∨
    ∃ table, record.field? "slave" = some "eniSlave" ∧ declarationsOf file "eniSlave" = [table] ∧
      record.field? "slavecount" = table.length?.map toString

/-- In a file for a configuration, references lead to tables and lengths are right. -/
structure Linked (configuration : Configuration) (file : List Item) : Prop where
  /-- A reference is null, or there is one declaration of its name, and it stands above. -/
  declared : ∀ before table after, file = before ++ table :: after → ∀ name ∈ table.references,
    name = "NULL" ∨ ∃ target ∈ before, declarationsOf file name = [target]
  /-- The length of a table is the number of its initializers. -/
  lengths : ∀ table ∈ file, table.name? ≠ some "ec_eni" → table.length? = some table.count
  /-- The table of slaves has a block for each slave that has commands. -/
  slaves : ∀ table ∈ file, table.name? = some "eniSlave" →
    List.Forall₂ (SlaveLinked file) configuration.busy table.children
  /-- The record stands last. -/
  record : ∃ tables record, file = tables ++ [record] ∧ record.name? = some "ec_eni" ∧
    RecordLinked configuration file record
  /-- Something refers to each table. -/
  used : ∀ table ∈ file, table.name? = some "ec_eni" ∨
    ∃ name, table.name? = some name ∧ ∃ other ∈ file, name ∈ other.references

theorem filter_of_nodup_map {α : Type} {key : α → String} {items : List α}
    (nodup : (items.map key).Nodup) {item : α} (member : item ∈ items) :
    items.filter (key · == key item) = [item] := by
  induction items with
  | nil => cases member
  | cons first later ih =>
      rw [List.map_cons, List.nodup_cons] at nodup
      obtain ⟨apart, rest⟩ := nodup
      rcases List.mem_cons.mp member with rfl | behind
      · have none : later.filter (key · == key item) = [] := by
          refine List.filter_eq_nil_iff.mpr fun other among same => apart ?_
          rw [← beq_iff_eq.mp same]
          exact List.mem_map_of_mem among
        rw [List.filter_cons, if_pos (beq_self_eq_true _), none]
      · have different : ¬(key first == key item) = true := by
          intro same
          rw [beq_iff_eq.mp same] at apart
          exact apart (List.mem_map_of_mem behind)
        rw [List.filter_cons, if_neg different, ih rest behind]

/-- A declaration refers to nothing but to what is declared before it. -/
def Refers (before : List Declaration) (declaration : Declaration) : Prop :=
  ∀ name ∈ declaration.references, name = nullPointer ∨ name ∈ before.map Declaration.name

namespace Slave

theorem names_sublist (slave : Slave) :
    (slave.declarations.map Declaration.name).Sublist (slaveNames slave.address) := by
  rw [declarations]
  cases declared : slave.bytesDeclaration? with
  | none => exact List.Sublist.cons _ (List.Sublist.refl _)
  | some declaration =>
      obtain ⟨rfl, -⟩ := bytesDeclaration?_eq_some declared
      exact List.Sublist.refl _

/-- What the commands of a slave refer to is null or the bytes of that slave, which it then has. -/
theorem of_mem_references {slave : Slave} {name : String}
    (member : name ∈ slave.commandsDeclaration.references) :
    name = nullPointer ∨ slave.bytesDeclaration?.isSome ∧ name = bytesName slave.address := by
  obtain ⟨entry, placed, rfl⟩ := List.mem_map.mp member
  obtain ⟨given, carried⟩ := mem_place placed
  rw [dataTarget]
  split
  · rename_i some
    exact .inr ⟨slave.isSome_bytesDeclaration?.mpr ⟨_, given, carried.mp some⟩, rfl⟩
  · exact .inl rfl

theorem bytesName_mem_references {slave : Slave} (carried : slave.rows ≠ []) :
    bytesName slave.address ∈ slave.commandsDeclaration.references := by
  obtain ⟨row, member⟩ := List.exists_mem_of_ne_nil _ carried
  obtain ⟨command, given, rfl⟩ := List.mem_map.mp (List.mem_filter.mp member).1
  rw [← map_command_place slave.commands] at given
  obtain ⟨entry, placed, rfl⟩ := List.mem_map.mp given
  have offset := (mem_place placed).2.mpr (slave.full_rows _ member)
  refine List.mem_map.mpr ⟨entry, placed, ?_⟩
  rw [dataTarget, if_pos offset]

/-- Both tables of a slave may come behind any declarations. -/
theorem grown_declarations (slave : Slave) {before : List Declaration}
    (grown : Grown Refers before) : Grown Refers (before ++ slave.declarations) := by
  rw [declarations]
  cases declared : slave.bytesDeclaration? with
  | none =>
      refine grown.snoc fun name member => ?_
      rcases of_mem_references member with null | ⟨some, -⟩
      · exact .inl null
      · rw [declared] at some
        cases some
  | some declaration =>
      obtain ⟨rfl, -⟩ := bytesDeclaration?_eq_some declared
      have first : Grown Refers (before ++ [.bytes slave.address slave.rows]) :=
        grown.snoc fun name member => absurd member List.not_mem_nil
      rw [Option.toList_some, ← List.append_assoc]
      refine first.snoc fun name member => ?_
      rcases of_mem_references member with null | ⟨-, rfl⟩
      · exact .inl null
      · exact .inr (by simp [Declaration.name])

end Slave

namespace Configuration

/-- Slaves that have commands have different addresses. -/
def Distinct (configuration : Configuration) : Prop :=
  ((configuration.slaves.filter (!·.isIdle)).map Slave.address).Nodup
  deriving Decidable

variable (configuration : Configuration)

theorem grown_busy (slaves : List Slave) {before : List Declaration}
    (grown : Grown Refers before) :
    Grown Refers (before ++ slaves.flatMap Slave.declarations) := by
  induction slaves generalizing before with
  | nil => rwa [List.flatMap_nil, List.append_nil]
  | cons slave later ih =>
      rw [List.flatMap_cons, ← List.append_assoc]
      exact ih (slave.grown_declarations grown)

/-- Declarations come one by one, each referring only to those before it. -/
theorem resolved : Grown Refers configuration.declarations := by
  have tables := grown_busy configuration.busy .nil
  rw [List.nil_append] at tables
  rw [declarations_eq, shared, ← List.append_assoc]
  cases table : configuration.slavesDeclaration? with
  | none =>
      rw [Option.toList_none, List.append_nil]
      refine tables.snoc fun name member => .inl ?_
      rw [List.mem_singleton.mp member, slavesDeclaration?_eq_none table]
      rfl
  | some declaration =>
      obtain ⟨rfl, some⟩ := slavesDeclaration?_eq_some table
      have slaves : Grown Refers
          (configuration.busy.flatMap Slave.declarations ++ [.slaves configuration.busy]) := by
        refine tables.snoc fun name member => .inr ?_
        obtain ⟨slave, busy, rfl⟩ := List.mem_map.mp member
        exact List.mem_map_of_mem (commandsDeclaration_mem busy)
      refine slaves.snoc fun name member => .inr ?_
      rw [List.mem_singleton.mp member, if_neg (by simpa using some)]
      simp [Declaration.name]

variable {configuration}

theorem nodup_addresses (distinct : configuration.Distinct) :
    (configuration.busy.map Slave.address).Nodup := by
  rw [busy_eq]
  exact ((List.mergeSort_perm _ _).map Slave.address).nodup_iff.mpr distinct

/-- No name is declared twice. -/
theorem nodup_names (distinct : configuration.Distinct) :
    (configuration.declarations.map Declaration.name).Nodup := by
  -- All names that could be declared are different, and some of them are not declared.
  refine (nodup_slaveNames (nodup_addresses distinct)).sublist ?_
  rw [declarations_eq, List.map_append, List.map_flatMap, List.flatMap_map]
  refine List.Sublist.append ?_ ?_
  · exact List.Sublist.flatMap_right _ fun slave _ => slave.names_sublist
  · rw [shared]
    cases table : configuration.slavesDeclaration? with
    | none => exact List.Sublist.cons _ (List.Sublist.refl _)
    | some declaration =>
        obtain ⟨rfl, -⟩ := slavesDeclaration?_eq_some table
        exact List.Sublist.refl _

/-- The name of a declaration is that of no other one, also as it is read. -/
theorem declarationsOf_outlined (distinct : configuration.Distinct) {declaration : Declaration}
    (member : declaration ∈ configuration.declarations) :
    declarationsOf (configuration.declarations.map outlined) declaration.name =
      [declaration.outlined] := by
  have named : ((fun item : Item => item.name? == some declaration.name) ∘ outlined) =
      fun other => other.name == declaration.name := by
    funext other
    rw [Function.comp_apply, name?_outlined, Option.some_beq_some]
  rw [declarationsOf, List.filter_map, named,
    filter_of_nodup_map (nodup_names distinct) member, List.map_singleton]

theorem slaves_mem_declarations (some : configuration.busy ≠ []) :
    .slaves configuration.busy ∈ configuration.declarations := by
  rw [declarations_eq, shared, slavesDeclaration?, if_neg (by simpa using some)]
  simp

theorem root_mem_declarations : .root configuration.busy.length ∈ configuration.declarations := by
  rw [declarations_eq, shared]
  simp

/-- The table of slaves and the record have names of their own. -/
theorem eq_slaves_of_name {declaration : Declaration}
    (member : declaration ∈ configuration.declarations) (named : declaration.name = slavesName) :
    declaration = .slaves configuration.busy := by
  have apart (address : UInt16) : slavesName ∉ slaveNames address :=
    shared_not_mem_slaveNames List.mem_cons_self address
  rcases declarations_cases member with ⟨slave, -, -, rfl⟩ | ⟨slave, -, rfl⟩ | ⟨-, rfl⟩ | rfl
  · exact absurd (named ▸ List.mem_cons_self) (apart slave.address)
  · exact absurd (named ▸ List.mem_cons_of_mem _ List.mem_cons_self) (apart slave.address)
  · rfl
  · exact absurd (show rootName = slavesName from named) (by decide)

/-- Each table is referred to. -/
theorem exists_referring {declaration : Declaration}
    (member : declaration ∈ configuration.declarations) (table : declaration.isRoot = false) :
    ∃ other ∈ configuration.declarations, declaration.name ∈ other.references := by
  rcases declarations_cases member with
    ⟨slave, busy, carried, rfl⟩ | ⟨slave, busy, rfl⟩ | ⟨some, rfl⟩ | rfl
  · exact ⟨_, mem_declarations_of_slave busy, Slave.bytesName_mem_references carried⟩
  · exact ⟨_, slaves_mem_declarations (List.ne_nil_of_mem busy), List.mem_map_of_mem busy⟩
  · refine ⟨_, root_mem_declarations, List.mem_singleton.mpr ?_⟩
    rw [if_neg (by simpa using some)]
    rfl
  · cases table

theorem slaveLinked (distinct : configuration.Distinct) {slave : Slave}
    (busy : slave ∈ configuration.busy) :
    SlaveLinked (configuration.declarations.map outlined) slave (slaveItem slave) := by
  refine ⟨commandsName slave.address, slave.commandsDeclaration.outlined,
    field?_slaveItem slave (by decide),
    declarationsOf_outlined distinct (mem_declarations_of_slave busy), rfl, ?_⟩
  rw [length?_outlined _ rfl, field?_slaveItem slave (by decide)]
  change some (toString slave.commands.length) = some (toString (place slave.commands).length)
  rw [length_place]

theorem recordLinked (distinct : configuration.Distinct) :
    RecordLinked configuration (configuration.declarations.map outlined)
      (root configuration.busy.length).outlined := by
  rw [RecordLinked, field?_root _ (by decide), field?_root _ (by decide)]
  by_cases none : configuration.busy = []
  · rw [none]
    exact .inl ⟨rfl, rfl, rfl⟩
  · have target : (if configuration.busy.length = 0 then nullPointer else slavesName) =
        "eniSlave" :=
      if_neg (by simpa using none)
    refine .inr ⟨(Declaration.slaves configuration.busy).outlined, congrArg some target,
      declarationsOf_outlined distinct (slaves_mem_declarations none), ?_⟩
    rw [length?_outlined _ rfl]
    rfl

/-- References in what is read of the declarations lead to tables, and the lengths are right. -/
theorem linked (distinct : configuration.Distinct) :
    Linked configuration (configuration.declarations.map outlined) where
  declared := by
    intro before table after split name referred
    obtain ⟨first, rest, whole, rfl, others⟩ := List.map_eq_append_iff.mp split
    obtain ⟨declaration, later, rfl, rfl, -⟩ := List.map_eq_cons_iff.mp others
    rw [references_outlined] at referred
    obtain ⟨-, refers⟩ := configuration.resolved.of_split whole
    rcases refers name referred with null | known
    · exact .inl null
    · -- The name stands above, and what has it is the only declaration that does.
      obtain ⟨target, above, rfl⟩ := List.mem_map.mp known
      have member : target ∈ configuration.declarations := by
        rw [whole]
        exact List.mem_append_left _ above
      exact .inr ⟨target.outlined, List.mem_map_of_mem above,
        declarationsOf_outlined distinct member⟩
  lengths := by
    intro item member named
    obtain ⟨declaration, declared, rfl⟩ := List.mem_map.mp member
    rw [name?_outlined] at named
    have table : declaration.isRoot = false := by
      refine Bool.eq_false_iff.mpr fun last => named ?_
      rw [name_of_isRoot last]
      rfl
    rw [length?_outlined _ table, count_outlined (filled_of_mem_declarations declared) table]
  slaves := by
    intro item member named
    obtain ⟨declaration, declared, rfl⟩ := List.mem_map.mp member
    rw [name?_outlined] at named
    rw [eq_slaves_of_name declared (Option.some.inj named)]
    change List.Forall₂ _ configuration.busy (configuration.busy.map slaveItem)
    rw [List.forall₂_map_right_iff, List.forall₂_same]
    exact fun slave busy => slaveLinked distinct busy
  record := by
    refine ⟨(configuration.busy.flatMap Slave.declarations ++
      configuration.slavesDeclaration?.toList).map outlined,
      (root configuration.busy.length).outlined, ?_, name?_outlined _, recordLinked distinct⟩
    rw [declarations_eq, shared, ← List.append_assoc, List.map_append, List.map_singleton]
  used := by
    intro item member
    obtain ⟨declaration, declared, rfl⟩ := List.mem_map.mp member
    rw [name?_outlined]
    cases table : declaration.isRoot with
    | true => exact .inl (congrArg some (name_of_isRoot table))
    | false =>
        obtain ⟨other, among, refers⟩ := exists_referring declared table
        rw [← references_outlined] at refers
        exact .inr ⟨declaration.name, rfl, other.outlined, List.mem_map_of_mem among, refers⟩

end Configuration

/-- Every reference in the text leads to a table above it, and every length is right. -/
theorem text_linked (header : String) {configuration : Configuration}
    (unbroken : configuration.Unbroken) (distinct : configuration.Distinct) :
    ∃ body file, Emission.text header configuration = Emission.inclusionLine header ++ body ∧
      readItems? body.toList = some file ∧ Linked configuration file :=
  ⟨_, _, Emission.text_eq header configuration, Emission.read_text unbroken,
    Configuration.linked distinct⟩

/-- An idle slave may have the address of another one, and a table of bytes may be missing. -/
theorem text_linked_idle :
    let configuration : Configuration :=
      ⟨[⟨7, 1, 2, 3, [⟨"", ["PS"], false, 1, 0x1c12, 0, 0, [5, 6]⟩,
          ⟨"", ["SO"], false, 1, 0x1c13, 0, 0, []⟩, ⟨"", ["OS"], true, 1, 0x1c12, 0, 0, [7]⟩]⟩,
        ⟨7, 1, 2, 3, []⟩, ⟨4, 1, 2, 3, [⟨"", ["PS", "SO"], false, 1, 0x1c12, 0, 0, []⟩]⟩]⟩
    configuration.Unbroken ∧ configuration.Distinct ∧
      ∃ body file, Emission.text "ecat.h" configuration = Emission.inclusionLine "ecat.h" ++ body ∧
        readItems? body.toList = some file ∧ Linked configuration file := by
  intro configuration
  have unbroken : configuration.Unbroken :=
    Configuration.Regular.unbroken (show configuration.Regular by decide)
  have distinct : configuration.Distinct := by decide
  exact ⟨unbroken, distinct, text_linked "ecat.h" unbroken distinct⟩

end BusTables
