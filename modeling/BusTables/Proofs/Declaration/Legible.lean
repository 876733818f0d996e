import BusTables.Emission
import BusTables.Proofs.Declaration.Plain
import BusTables.Proofs.Initializer.Listing

/-!
# Declarations can be read back

The lines of a declaration can be told apart as long as no name of a transition holds a line end
(`legible_item`).
-/

namespace BusTables

open Initializer

/-- No name of a transition holds a line end. -/
def Command.Unbroken (command : Command) : Prop :=
  ∀ name ∈ command.transitions, '\n' ∉ name.toList

/-- There are transitions, and their names are words. -/
def Command.Regular (command : Command) : Prop :=
  command.transitions ≠ [] ∧ ∀ name ∈ command.transitions, Text.IsWord name
  deriving Decidable

theorem Command.Regular.unbroken {command : Command} (regular : command.Regular) :
    command.Unbroken := by
  intro name member inside
  exact absurd ((regular.2 name member).2 '\n' inside) (by decide)

namespace Declaration

/-- Every row and every table holds something. -/
def Filled : Declaration → Prop
  | .bytes _ rows => rows ≠ [] ∧ ∀ row ∈ rows, row ≠ []
  | .commands _ entries => entries ≠ []
  | .slaves entries => entries ≠ []
  | .root _ => True

/-- No name of a transition in a declaration holds a line end. -/
def Unbroken : Declaration → Prop
  | .commands _ entries => ∀ entry ∈ entries, entry.command.Unbroken
  | _ => True

theorem leads_type (declaration : Declaration) : Leads declaration.type := by
  have leads : ∀ text ∈ types, Leads text := by decide
  exact leads _ declaration.type_mem

theorem leads_header (declaration : Declaration) : Leads declaration.header := by
  have start : Leads (declaration.type ++ " " ++ declaration.name) :=
    (declaration.leads_type.append " ").append declaration.name
  cases declaration with
  | bytes | commands | slaves => exact start.append _
  | root => exact start

/-- Where other items follow, legible items may come first. -/
theorem allLegible_append {depth : Nat} {first later : List Item} (nonempty : later ≠ [])
    (legible : ∀ item ∈ first, item.Legible depth false) (rest : Item.AllLegible depth later) :
    Item.AllLegible depth (first ++ later) := by
  induction first with
  | nil => exact rest
  | cons item items ih =>
      have follow : (items ++ later).isEmpty = false := by simp [nonempty]
      have remaining := ih fun other member => legible other (List.mem_cons_of_mem item member)
      refine .cons ?_ remaining
      change item.Legible depth (items ++ later).isEmpty
      rw [follow]
      exact legible item List.mem_cons_self

theorem allLegible_of_forall {depth : Nat} {items : List Item}
    (legible : ∀ item ∈ items, ∀ isLast, item.Legible depth isLast) :
    Item.AllLegible depth items := by
  induction items with
  | nil => exact .nil
  | cons item later ih =>
      exact Item.AllLegible.cons (legible item List.mem_cons_self _)
        (ih fun other member => legible other (List.mem_cons_of_mem item member))

theorem leads_field (name value : String) : Leads ("." ++ name ++ " = " ++ value) := by
  rw [String.append_assoc, String.append_assoc]
  exact Leads.append (by decide) _

theorem plain_field {name value : String} (named : Text.Plain name) (plain : Text.Plain value) :
    Text.Plain ("." ++ name ++ " = " ++ value) :=
  (Text.Plain.append (Text.Plain.append (by decide) named) (by decide)).append plain

/-- A field is legible in front of others if its value is one line. -/
theorem legible_field {name value : String} (depth : Nat) (named : Text.Plain name)
    (whole : '\n' ∉ value.toList) : (field name value).Legible (depth + 1) false := by
  have label : Text.Plain ("." ++ name ++ " = ") :=
    Text.Plain.append (Text.Plain.append (by decide) named) (by decide)
  refine .value (Nat.succ_pos depth) ?_ (leads_field name value) fun last => Bool.noConfusion last
  rw [String.toList_append, List.mem_append]
  exact fun member => member.elim label.whole whole

/-- A field that is the last one is legible if its value is plain. -/
theorem legible_last_field {name value : String} (depth : Nat) (named : Text.Plain name)
    (plain : Text.Plain value) : (field name value).Legible (depth + 1) true := by
  have text := plain_field named plain
  exact .value (Nat.succ_pos depth) text.whole (leads_field name value) fun _ =>
    ⟨text.getLast?_ne (by decide), text.getLast?_ne (by decide)⟩

theorem legible_fields {pairs : List (String × String)} (depth : Nat) (named : Named pairs)
    (whole : ∀ pair ∈ pairs, '\n' ∉ pair.2.toList)
    (plain : ∀ pair ∈ pairs.getLast?, Text.Plain pair.2) :
    Item.AllLegible (depth + 1) (fields pairs) := by
  induction pairs with
  | nil => exact .nil
  | cons pair later ih =>
      have name := (named pair.1 List.mem_cons_self).1
      cases later with
      | nil => exact .cons (legible_last_field depth name (plain pair rfl)) .nil
      | cons next rest =>
          have first := legible_field depth name (whole pair List.mem_cons_self)
          have others := ih (fun other member => named other (List.mem_cons_of_mem _ member))
            (fun other member => whole other (List.mem_cons_of_mem _ member))
            (by simpa using plain)
          exact .cons first others

theorem legible_plain_fields {pairs : List (String × String)} (depth : Nat) (named : Named pairs)
    (plain : ∀ pair ∈ pairs, Text.Plain pair.2) : Item.AllLegible (depth + 1) (fields pairs) :=
  legible_fields depth named (fun pair member => (plain pair member).whole)
    fun pair last => plain pair (List.mem_of_getLast? last)

theorem leads_row {row : Payload} (nonempty : row ≠ []) :
    Leads (Text.listed (row.map UInt8.toNat)) := by
  have numbers : row.map UInt8.toNat ≠ [] := by simpa using nonempty
  obtain ⟨first, starts, digit⟩ := Text.head?_listed numbers
  have apart := Text.ne_of_class digit
  simp [Leads, starts, Text.isWhitespace_of_isDigit digit, apart '/' (by decide),
    apart '\x7d' (by decide)]

theorem legible_rowItem {row : Payload} (nonempty : row ≠ []) (depth : Nat) (isLast : Bool) :
    (rowItem row).Legible (depth + 1) isLast := by
  have numbers : row.map UInt8.toNat ≠ [] := by simpa using nonempty
  have ends (mark : Char) (other : mark.isDigit = false) :
      (Text.listed (row.map UInt8.toNat)).toList.getLast? ≠ some mark := by
    intro last
    exact Text.ne_of_class (Text.getLast?_listed numbers last) mark other rfl
  rw [rowItem_eq]
  exact .value (Nat.succ_pos depth) (Text.whole_listed _) (leads_row nonempty) fun _ =>
    ⟨ends ',' (by decide), ends '\x7b' (by decide)⟩

theorem whole_transitionMask {transitions : List String}
    (whole : ∀ name ∈ transitions, '\n' ∉ name.toList) :
    '\n' ∉ (transitionMask transitions).toList := by
  intro member
  rcases mem_transitionMask member with ⟨name, given, inside⟩ | plain
  · exact whole name given inside
  · exact absurd plain (by decide)

theorem legible_commandItem (address : UInt16) {entry : PlacedCommand}
    (unbroken : entry.command.Unbroken) (depth : Nat) (isLast : Bool) :
    (commandItem address entry).Legible depth isLast := by
  have comments : ∀ item ∈ commentItems entry.command.comment,
      item.Legible (depth + 1) false := by
    intro item member
    unfold commentItems at member
    split at member
    · exact absurd member List.not_mem_nil
    · rw [List.mem_singleton.mp member]
      exact .comment
  have whole : ∀ pair ∈ commandPairs address entry, '\n' ∉ pair.2.toList := by
    intro pair member
    rcases plain_or_transitions member with mask | plain
    · rw [mask]
      exact whole_transitionMask unbroken
    · exact plain.whole
  have last : ∀ pair ∈ (commandPairs address entry).getLast?, Text.Plain pair.2 := by
    rintro pair ⟨⟩
    exact plain_dataPointer address entry.offset
  have behind := legible_fields depth (named_commandPairs address entry) whole last
  rw [commandItem_eq]
  exact .block (by simp) (by simp) (allLegible_append (List.cons_ne_nil _ _) comments behind)

theorem legible_slaveItem (slave : Slave) (depth : Nat) (isLast : Bool) :
    (slaveItem slave).Legible depth isLast := by
  rw [slaveItem_eq]
  exact .block (by simp) (by simp)
    (legible_plain_fields depth (named_slavePairs slave) fun _ => plain_slavePairs)

/-- The lines of a declaration can be told apart. -/
theorem legible_item {declaration : Declaration} (filled : declaration.Filled)
    (unbroken : declaration.Unbroken) (depth : Nat) (isLast : Bool) :
    declaration.item.Legible depth isLast := by
  refine .block (fun text given => ?_) (fun text given => ?_) ?_
  · rw [← Option.mem_some.mp given]
    exact declaration.plain_header.whole
  · rw [← Option.mem_some.mp given]
    exact declaration.leads_header
  · cases declaration with
    | bytes address rows =>
        refine allLegible_of_forall fun item member last => ?_
        obtain ⟨row, given, rfl⟩ := List.mem_map.mp member
        exact legible_rowItem (filled.2 row given) depth last
    | commands address entries =>
        refine allLegible_of_forall fun item member last => ?_
        obtain ⟨entry, given, rfl⟩ := List.mem_map.mp member
        exact legible_commandItem address (unbroken entry given) (depth + 1) last
    | slaves entries =>
        refine allLegible_of_forall fun item member last => ?_
        obtain ⟨slave, given, rfl⟩ := List.mem_map.mp member
        exact legible_slaveItem slave (depth + 1) last
    | root count =>
        rw [items_root]
        exact legible_plain_fields depth (named_rootPairs count) fun _ => plain_rootPairs

end Declaration

end BusTables
