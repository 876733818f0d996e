import BusTables.Proofs.Declaration.Plain
import Mathlib.Data.List.Basic

/-!
# Reading fields

A block gives values to fields by name.  Names hold no blank, so that the label of a field is
found by the blank behind it, and the value of a field is found by its name whatever comments
stand before it (`field?_block`).
-/

namespace BusTables

namespace Initializer

/-- What stands before the value of a field. -/
def fieldLabel (name : String) : List Char := ("." ++ name ++ " = ").toList

/-- The value of a field of the given name. -/
def fieldValue? (name : String) : Item → Option String
  | .value text => ((fieldLabel name).isPrefixOf? text.toList).map String.ofList
  | _ => none

/-- The value that a block gives to a field. -/
def Item.field? (name : String) : Item → Option String
  | .block _ items => items.findSome? (fieldValue? name)
  | _ => none

/-- What a block is assigned to. -/
def Item.header? : Item → Option String
  | .block header _ => header
  | _ => none

/-- The items in a block. -/
def Item.children : Item → List Item
  | .block _ items => items
  | _ => []

/-- The numbers in a row. -/
def Item.row? : Item → Option (List Nat)
  | .value text => Text.decimals? text.toList
  | _ => none

/-- The numbers in the rows of a block, one row after the other. -/
def Item.numbers? (item : Item) : Option (List Nat) :=
  (item.children.mapM Item.row?).map List.flatten

end Initializer

open Initializer

namespace Declaration

theorem fieldValue?_field (name value : String) :
    fieldValue? name (field name value) = some value := by
  have found : (fieldLabel name).isPrefixOf? ("." ++ name ++ " = " ++ value).toList =
      some value.toList := by
    rw [List.isPrefixOf?_eq_some_iff_append_eq, fieldLabel, ← String.toList_append]
  rw [field, fieldValue?, found, Option.map_some, String.ofList_toList]

theorem fieldValue?_field_of_ne {name other : String} (named : ' ' ∉ name.toList)
    (otherNamed : ' ' ∉ other.toList) (apart : name ≠ other) (value : String) :
    fieldValue? name (field other value) = none := by
  cases found : (fieldLabel name).isPrefixOf? ("." ++ other ++ " = " ++ value).toList with
  | none => rw [field, fieldValue?, found, Option.map_none]
  | some rest =>
      have whole := (List.append_eq_of_isPrefixOf?_eq_some found).symm
      simp only [fieldLabel, String.toList_append, List.append_assoc] at whole
      obtain ⟨names, -⟩ := Text.cut_unique otherNamed named (List.append_cancel_left whole)
      exact absurd (String.toList_inj.mp names).symm apart

theorem findSome?_fields {pairs : List (String × String)} (named : Named pairs) {name : String}
    (asked : ' ' ∉ name.toList) :
    (fields pairs).findSome? (fieldValue? name) = pairs.lookup name := by
  induction pairs with
  | nil => rfl
  | cons pair later ih =>
      have rest := ih fun other member => named other (List.mem_cons_of_mem pair.1 member)
      rw [fields, List.map_cons, List.findSome?_cons, List.lookup_cons]
      by_cases same : name = pair.1
      · rw [same, fieldValue?_field, beq_self_eq_true]
      · obtain ⟨-, first⟩ := named pair.1 List.mem_cons_self
        rw [fieldValue?_field_of_ne asked first same, beq_eq_false_iff_ne.mpr same]
        exact rest

theorem findSome?_commentItems (text name : String) :
    (commentItems text).findSome? (fieldValue? name) = none := by
  unfold commentItems
  split <;> rfl

/-- The value of a field is found by its name, whatever comment stands before the fields. -/
theorem field?_block (header : Option String) (comment : String) {pairs : List (String × String)}
    (named : Named pairs) {name : String} (asked : ' ' ∉ name.toList) :
    (Item.block header (commentItems comment ++ fields pairs)).field? name =
      pairs.lookup name := by
  rw [Item.field?, List.findSome?_append, findSome?_commentItems, findSome?_fields named asked,
    Option.none_or]

theorem field?_commandItem (address : UInt16) (entry : PlacedCommand) {name : String}
    (asked : ' ' ∉ name.toList) :
    (commandItem address entry).field? name = (commandPairs address entry).lookup name :=
  field?_block none entry.command.comment (named_commandPairs address entry) asked

theorem field?_slaveItem (slave : Slave) {name : String} (asked : ' ' ∉ name.toList) :
    (slaveItem slave).field? name = (slavePairs slave).lookup name :=
  field?_block none "" (named_slavePairs slave) asked

theorem header_bytes (address : UInt16) (rows : List Payload) :
    (bytes address rows).header =
      s!"static uint8 s{address.toNat}_coeData[{rows.flatten.length}]" := by
  rw [← String.toList_inj]
  simp [header, type, name, length, bytesName]

theorem header_commands (address : UInt16) (entries : List PlacedCommand) :
    (commands address entries).header =
      s!"static ec_enicoecmdt s{address.toNat}_coeCmds[{entries.length}]" := by
  rw [← String.toList_inj]
  simp [header, type, name, length, commandsName]

theorem header_slaves (entries : List Slave) :
    (slaves entries).header = s!"static ec_enislavet eniSlave[{entries.length}]" := by
  rw [← String.toList_inj]
  simp [header, type, name, length, slavesName]

theorem numbers?_bytes (address : UInt16) {rows : List Payload}
    (filled : ∀ row ∈ rows, row ≠ []) :
    (bytes address rows).item.numbers? = some (rows.flatten.map UInt8.toNat) := by
  have read : (rows.map rowItem).mapM Item.row? =
      some (rows.map fun row => row.map UInt8.toNat) := by
    induction rows with
    | nil => rfl
    | cons row later ih =>
        have numbers : row.map UInt8.toNat ≠ [] := by simpa using filled row List.mem_cons_self
        have rest := ih fun other member => filled other (List.mem_cons_of_mem row member)
        rw [List.map_cons, List.mapM_cons, rest, rowItem_eq, Item.row?,
          Text.decimals?_listed numbers]
        rfl
  rw [Item.numbers?]
  change ((rows.map rowItem).mapM Item.row?).map List.flatten = _
  rw [read, Option.map_some, List.map_flatten]

end Declaration

end BusTables
