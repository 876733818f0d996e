import BusTables.Proofs.Configuration.Order
import BusTables.Proofs.Declaration.Outline
import BusTables.Proofs.Emission.Text

/-!
# The text determines the configuration

Texts are compared as they are read back: equal texts have equal outlines, declaration by
declaration.  The induction is on the slaves that have commands (`commands_of_outlines`); the
headers tell where the tables of one slave end and those of the next one begin.  What is lost is
what is not written: idle slaves, the order of slaves beyond their addresses, and of comments
all but their lines (`text_injective`).
-/

namespace BusTables

open Initializer

/-- A command with the lines that are written for its comment. -/
def Command.normal (command : Command) : List String × Command :=
  (writtenLines command.comment, { command with comment := "" })

theorem Command.normal_eq (command : Command) :
    command.normal = (command.core.1, { command.core.2.1 with data := command.data }) := by
  simp only [Command.normal, Command.core]

/-- A slave without its commands, and its commands. -/
def Slave.normal (slave : Slave) : Slave × List (List String × Command) :=
  ({ slave with commands := [] }, slave.commands.map Command.normal)

/-- The slaves that have commands, sorted by address without changing the order otherwise. -/
def Configuration.normal (configuration : Configuration) :
    List (Slave × List (List String × Command)) :=
  ((configuration.slaves.filter (!·.isIdle)).mergeSort fun first second =>
    first.address ≤ second.address).map Slave.normal

section Lists

variable {α β γ δ : Type}

/-- What two lists have in common item by item. -/
theorem map_eq_of_map_eq {image : α → γ} {other : β → γ} {view : α → δ} {otherView : β → δ}
    {first : List α} {second : List β} (same : first.map image = second.map other)
    (step : ∀ item ∈ first, ∀ partner ∈ second, image item = other partner →
      view item = otherView partner) : first.map view = second.map otherView := by
  induction first generalizing second with
  | nil =>
      cases second with
      | nil => rfl
      | cons partner later => cases same
  | cons item rest ih =>
      cases second with
      | nil => cases same
      | cons partner later =>
          obtain ⟨heads, tails⟩ := List.cons.inj same
          have views := step item List.mem_cons_self partner List.mem_cons_self heads
          rw [List.map_cons, List.map_cons, views]
          rw [ih tails fun item member partner among =>
            step item (List.mem_cons_of_mem _ member) partner (List.mem_cons_of_mem _ among)]

theorem map_pair_eq {first second : List α} {view : α → γ} {other : α → δ}
    (views : first.map view = second.map view) (others : first.map other = second.map other) :
    first.map (fun item => (view item, other item)) =
      second.map fun item => (view item, other item) := by
  rw [← List.zip_map', ← List.zip_map', views, others]

end Lists

namespace Declaration

/-- The declaration belongs to one slave. -/
def ofSlave : Declaration → Bool
  | .bytes .. => true
  | .commands .. => true
  | _ => false

/-- A header starts with the type. -/
theorem type_of_header {declaration other : Declaration}
    (same : declaration.header = other.header) : declaration.type = other.type := by
  have starts (declaration : Declaration) :
      ∃ rest, declaration.header.toList = declaration.type.toList ++ ' ' :: rest := by
    cases declaration <;> simp [header]
  obtain ⟨rest, first⟩ := starts declaration
  obtain ⟨others, second⟩ := starts other
  rw [same, second] at first
  cases declaration <;> cases other <;> first | rfl | simp [type] at first

theorem ofSlave_of_outlined {declaration other : Declaration}
    (same : declaration.outlined = other.outlined) : declaration.ofSlave = other.ofSlave := by
  have types := type_of_header (Option.some.inj (Item.block.inj same).1)
  cases declaration <;> cases other <;> first | rfl | simp [type] at types

end Declaration

open Declaration

/-- The sizes tell which rows belong to which commands. -/
theorem eq_of_sizes {first second : List Payload}
    (sizes : first.map List.length = second.map List.length)
    (rows : first.filter (!·.isEmpty) = second.filter (!·.isEmpty)) : first = second := by
  induction first generalizing second with
  | nil =>
      cases second with
      | nil => rfl
      | cons other others => cases sizes
  | cons data later ih =>
      cases second with
      | nil => cases sizes
      | cons other others =>
          obtain ⟨size, rest⟩ := List.cons.inj sizes
          by_cases empty : data = []
          -- An empty row is not written, but its size is.
          · have alike : other = [] := by
              rw [empty] at size
              exact List.length_eq_zero_iff.mp size.symm
            rw [ih rest (by simpa [empty, alike] using rows), empty, alike]
          · have alike : other ≠ [] := by
              rintro rfl
              exact empty (List.length_eq_zero_iff.mp size)
            rw [List.filter_cons_of_pos (by simpa using empty),
              List.filter_cons_of_pos (by simpa using alike)] at rows
            obtain ⟨same, remaining⟩ := List.cons.inj rows
            rw [same, ih rest remaining]

/-- The table of bytes supplies what the table of commands leaves open. -/
theorem normal_of_core {first second : List Command}
    (cores : first.map Command.core = second.map Command.core)
    (rows : (first.map (·.data)).filter (!·.isEmpty) =
      (second.map (·.data)).filter (!·.isEmpty)) :
    first.map Command.normal = second.map Command.normal := by
  have sizes : (first.map (·.data)).map List.length = (second.map (·.data)).map List.length := by
    have measured := congrArg (List.map (·.2.2)) cores
    rw [List.map_map, List.map_map] at measured ⊢
    exact measured
  have pairs := map_pair_eq cores (eq_of_sizes sizes rows)
  refine map_eq_of_map_eq pairs fun command _ other _ same => ?_
  obtain ⟨core, data⟩ := Prod.mk.inj same
  rw [Command.normal_eq, core, data, ← Command.normal_eq]

namespace Slave

/-- The commands of a slave are regular. -/
def Regular (slave : Slave) : Prop := ∀ command ∈ slave.commands, command.Regular

theorem core_of_commandsDeclaration {slave other : Slave} (regular : slave.Regular)
    (otherRegular : other.Regular)
    (same : slave.commandsDeclaration.outlined = other.commandsDeclaration.outlined) :
    slave.commands.map Command.core = other.commands.map Command.core := by
  have placed {slave : Slave} (regular : slave.Regular) :
      ∀ entry ∈ place slave.commands, entry.command.Regular := by
    intro entry member
    apply regular
    rw [← map_command_place slave.commands]
    exact List.mem_map_of_mem member
  have cores := map_eq_of_map_eq (Item.block.inj same).2 fun entry member partner among =>
    core_of_outlinedCommand (placed regular entry member) (placed otherRegular partner among)
  rw [← map_command_place slave.commands, ← map_command_place other.commands, List.map_map,
    List.map_map]
  exact cores

theorem rows_of_bytes {address otherAddress : UInt16} {rows otherRows : List Payload}
    (filled : ∀ row ∈ rows, row ≠ []) (otherFilled : ∀ row ∈ otherRows, row ≠ [])
    (same : (bytes address rows).outlined = (bytes otherAddress otherRows).outlined) :
    rows = otherRows := by
  have equal := map_eq_of_map_eq (Item.block.inj same).2 fun row member partner among =>
    rowItem_injective (filled row member) (otherFilled partner among)
  simpa using equal

/-- The tables of a slave are told from each other and from what follows them. -/
theorem tables_of_outlined {slave other : Slave} {later rest : List Declaration}
    (same : (slave.declarations ++ later).map outlined =
      (other.declarations ++ rest).map outlined) :
    slave.rows = other.rows ∧
      slave.commandsDeclaration.outlined = other.commandsDeclaration.outlined ∧
      later.map outlined = rest.map outlined := by
  have mismatch {first second : Declaration} (tables : first.outlined = second.outlined) :
      first.type = second.type :=
    type_of_header (Option.some.inj (Item.block.inj tables).1)
  rw [declarations, declarations] at same
  cases first : slave.bytesDeclaration? with
  | none =>
      cases second : other.bytesDeclaration? with
      | none =>
          rw [first, second] at same
          obtain ⟨tables, tails⟩ := List.cons.inj same
          rw [bytesDeclaration?_eq_none first, bytesDeclaration?_eq_none second]
          exact ⟨rfl, tables, tails⟩
      | some bytes =>
          obtain ⟨rfl, -⟩ := bytesDeclaration?_eq_some second
          rw [first, second] at same
          have types := mismatch (List.cons.inj same).1
          simp [commandsDeclaration, type] at types
  | some bytes =>
      obtain ⟨rfl, -⟩ := bytesDeclaration?_eq_some first
      cases second : other.bytesDeclaration? with
      | none =>
          rw [first, second] at same
          have types := mismatch (List.cons.inj same).1
          simp [commandsDeclaration, type] at types
      | some otherBytes =>
          obtain ⟨rfl, -⟩ := bytesDeclaration?_eq_some second
          rw [first, second] at same
          obtain ⟨bytes, others⟩ := List.cons.inj same
          obtain ⟨tables, tails⟩ := List.cons.inj others
          exact ⟨rows_of_bytes slave.full_rows other.full_rows bytes, tables, tails⟩

theorem ofSlave_of_mem {slave : Slave} {declaration : Declaration}
    (member : declaration ∈ slave.declarations) : declaration.ofSlave = true := by
  rcases List.mem_append.mp member with bytes | commands
  · obtain ⟨rfl, -⟩ := bytesDeclaration?_eq_some (Option.mem_toList.mp bytes)
    rfl
  · rw [List.mem_singleton.mp commands]
    rfl

theorem declarations_ne_nil (slave : Slave) : slave.declarations ≠ [] := by
  simp [declarations]

/-- The tables of slaves are no table of slaves and no record. -/
theorem outlined_ne {slave : Slave} {closing later : List Declaration}
    (shared : ∀ declaration ∈ closing, declaration.ofSlave = false) :
    closing.map outlined ≠ (slave.declarations ++ later).map outlined := by
  intro same
  obtain ⟨first, others, declared⟩ := List.exists_cons_of_ne_nil slave.declarations_ne_nil
  rw [declared] at same
  cases closing with
  | nil => cases same
  | cons declaration rest =>
      have alike := ofSlave_of_outlined (List.cons.inj same).1
      rw [shared declaration List.mem_cons_self,
        ofSlave_of_mem (declared ▸ List.mem_cons_self)] at alike
      cases alike

end Slave

/-- The tables in front of the shared ones determine the commands, slave by slave. -/
theorem commands_of_outlines {slaves others : List Slave} {closing ending : List Declaration}
    (regular : ∀ slave ∈ slaves, slave.Regular) (otherRegular : ∀ slave ∈ others, slave.Regular)
    (shared : ∀ declaration ∈ closing, declaration.ofSlave = false)
    (otherShared : ∀ declaration ∈ ending, declaration.ofSlave = false)
    (same : (slaves.flatMap Slave.declarations ++ closing).map outlined =
      (others.flatMap Slave.declarations ++ ending).map outlined) :
    slaves.map (·.commands.map Command.normal) = others.map (·.commands.map Command.normal) ∧
      closing.map outlined = ending.map outlined := by
  induction slaves generalizing others with
  | nil =>
      cases others with
      | nil => exact ⟨rfl, same⟩
      | cons other rest =>
          rw [List.flatMap_cons, List.append_assoc] at same
          exact absurd same (Slave.outlined_ne shared)
  | cons slave later ih =>
      cases others with
      | nil =>
          rw [List.flatMap_cons, List.append_assoc] at same
          exact absurd same.symm (Slave.outlined_ne otherShared)
      | cons other rest =>
          -- The tables of the first slaves agree, and so does everything behind them.
          rw [List.flatMap_cons, List.append_assoc, List.flatMap_cons, List.append_assoc] at same
          obtain ⟨rows, tables, tails⟩ := Slave.tables_of_outlined same
          have cores := Slave.core_of_commandsDeclaration (regular slave List.mem_cons_self)
            (otherRegular other List.mem_cons_self) tables
          obtain ⟨commands, endings⟩ := ih
            (fun item member => regular item (List.mem_cons_of_mem _ member))
            (fun item member => otherRegular item (List.mem_cons_of_mem _ member)) tails
          rw [List.map_cons, List.map_cons, normal_of_core cores rows, commands]
          exact ⟨rfl, endings⟩

namespace Configuration

theorem ofSlave_of_mem_shared {configuration : Configuration} :
    ∀ declaration ∈ configuration.shared, declaration.ofSlave = false := by
  intro declaration member
  rcases List.mem_append.mp member with table | record
  · obtain ⟨rfl, -⟩ := slavesDeclaration?_eq_some (Option.mem_toList.mp table)
    rfl
  · rw [List.mem_singleton.mp record]
    rfl

theorem identity_of_shared {first second : Configuration}
    (same : first.shared.map outlined = second.shared.map outlined) :
    first.busy.map identity = second.busy.map identity := by
  rw [shared, shared] at same
  cases table : first.slavesDeclaration? with
  | none =>
      cases other : second.slavesDeclaration? with
      | none => rw [slavesDeclaration?_eq_none table, slavesDeclaration?_eq_none other]
      | some declaration =>
          rw [table, other] at same
          cases (List.cons.inj same).2
  | some declaration =>
      cases other : second.slavesDeclaration? with
      | none =>
          rw [table, other] at same
          cases (List.cons.inj same).2
      | some otherDeclaration =>
          obtain ⟨rfl, -⟩ := slavesDeclaration?_eq_some table
          obtain ⟨rfl, -⟩ := slavesDeclaration?_eq_some other
          rw [table, other] at same
          have tables := (List.cons.inj same).1
          exact map_eq_of_map_eq (Item.block.inj tables).2 fun slave _ other _ =>
            identity_of_slaveItem

theorem normal_eq (configuration : Configuration) :
    configuration.normal = configuration.busy.map Slave.normal := by
  rw [busy_eq]
  rfl

end Configuration

/-- Configurations of equal text are equal but for what is not written. -/
theorem text_injective {header : String} {first second : Configuration}
    (regular : first.Regular) (otherRegular : second.Regular)
    (same : Emission.text header first = Emission.text header second) :
    first.normal = second.normal := by
  have layouts : layoutFile Emission.columns first.items =
      layoutFile Emission.columns second.items := by
    rw [Emission.text_eq, Emission.text_eq, ← String.toList_inj, String.toList_append,
      String.toList_append] at same
    exact String.toList_inj.mp (List.append_cancel_left same)
  have outlines : first.declarations.map outlined = second.declarations.map outlined := by
    have read := Emission.read_text regular.unbroken
    rw [layouts, Emission.read_text otherRegular.unbroken] at read
    exact (Option.some.inj read).symm
  rw [Configuration.declarations_eq, Configuration.declarations_eq] at outlines
  have busy {configuration : Configuration} (regular : configuration.Regular) :
      ∀ slave ∈ configuration.busy, slave.Regular :=
    fun slave member => regular slave (Configuration.mem_busy.mp member).1
  obtain ⟨commands, shared⟩ := commands_of_outlines (busy regular) (busy otherRegular)
    Configuration.ofSlave_of_mem_shared Configuration.ofSlave_of_mem_shared outlines
  have identities := Configuration.identity_of_shared shared
  have pairs := map_pair_eq identities commands
  rw [Configuration.normal_eq, Configuration.normal_eq]
  refine map_eq_of_map_eq pairs fun slave _ other _ pair => ?_
  obtain ⟨identity, commands⟩ := Prod.mk.inj pair
  rw [Slave.normal, Slave.normal, commands]
  rw [(Prod.mk.inj identity).1]

/-- A slave with one command, and that slave before an idle one. -/
def annotated (comment : String) (idle : List Slave) : Configuration :=
  ⟨⟨1, 2, 3, 4, [⟨comment, ["PS", "SO"], false, 1, 0x1c12, 0, 0, [5]⟩]⟩ :: idle⟩

/-- Blanks around a comment and idle slaves leave no trace. -/
theorem text_injective_annotated :
    (annotated "motor" []).normal = (annotated " motor\n" [⟨7, 2, 3, 4, []⟩]).normal := by
  have alone : (annotated "motor" []).sorted = (annotated "motor" []).slaves :=
    List.mergeSort_of_pairwise (by decide)
  have sorted : (annotated " motor\n" [⟨7, 2, 3, 4, []⟩]).sorted =
      (annotated " motor\n" [⟨7, 2, 3, 4, []⟩]).slaves :=
    List.mergeSort_of_pairwise (by decide)
  have lines : Item.allLines Emission.columns 0 (annotated "motor" []).items =
      Item.allLines Emission.columns 0 (annotated " motor\n" [⟨7, 2, 3, 4, []⟩]).items := by
    simp only [Configuration.items, Configuration.declarations, Configuration.plan,
      Configuration.slavesDeclaration?, Configuration.busy, alone, sorted]
    decide +kernel
  refine text_injective (show (annotated "motor" []).Regular by decide)
    (show (annotated " motor\n" [⟨7, 2, 3, 4, []⟩]).Regular by decide)
    (show Emission.text "ecat.h" _ = Emission.text "ecat.h" _ from ?_)
  rw [Emission.text_eq, Emission.text_eq, ← String.toList_inj, String.toList_append,
    String.toList_append, toList_layoutFile, toList_layoutFile, lines]

end BusTables
