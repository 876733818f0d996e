import BusTables.Proofs.Declaration.Legible

/-!
# Outlines of declarations

An outline tells what a declaration says.  Each field has one notation for each value, so that
the outline of a command determines the command but for its bytes (`core_of_outlinedCommand`), and
the outline of a table of bytes determines the rows (`rowItem_injective`).
-/

namespace BusTables

open Initializer

/-- The lines that are written for a comment. -/
def writtenLines (comment : String) : List String :=
  if (Text.trim comment).isEmpty then [] else commentLines comment

/-- What the fields of a command say, and the lines before them. -/
def Command.core (command : Command) : List String × Command × Nat :=
  (writtenLines command.comment, { command with comment := "", data := [] },
    command.data.length)

namespace Initializer

theorem Item.outlineAll_append (first later : List Item) :
    Item.outlineAll (first ++ later) = Item.outlineAll first ++ Item.outlineAll later := by
  induction first with
  | nil => rfl
  | cons item rest ih => rw [List.cons_append, outlineAll, outlineAll, ih, List.append_assoc]

/-- Items whose outlines are single items. -/
theorem Item.outlineAll_map {α : Type} {item : α → Item} (outlined : α → Item)
    (single : ∀ source, (item source).outline = [outlined source]) (sources : List α) :
    Item.outlineAll (sources.map item) = sources.map outlined := by
  induction sources with
  | nil => rfl
  | cons source later ih =>
      rw [List.map_cons, List.map_cons, outlineAll, single, ih, List.singleton_append]

theorem comments_append_injective {first second : List String} {field other : Item}
    {fields others : List Item} (value : field.isComment = false)
    (otherValue : other.isComment = false)
    (same : first.map Item.comment ++ field :: fields =
      second.map Item.comment ++ other :: others) :
    first = second ∧ field :: fields = other :: others := by
  induction first generalizing second with
  | nil =>
      cases second with
      | nil => exact ⟨rfl, same⟩
      | cons line later =>
          rw [List.head_eq_of_cons_eq same] at value
          cases value
  | cons line later ih =>
      cases second with
      | nil =>
          rw [← List.head_eq_of_cons_eq same] at otherValue
          cases otherValue
      | cons second rest =>
          obtain ⟨lines, tails⟩ := List.cons.inj same
          obtain ⟨equal, fields⟩ := ih tails
          exact ⟨by rw [Item.comment.inj lines, equal], fields⟩

end Initializer

namespace Declaration

theorem field_injective {name value other : String} (same : field name value = field name other) :
    value = other := by
  have texts := congrArg String.toList (Item.value.inj same)
  simp only [String.toList_append] at texts
  exact String.toList_inj.mp (List.append_cancel_left texts)

/-- Fields of the same names have the same values. -/
theorem fields_injective {pairs others : List (String × String)}
    (same : fields pairs = fields others) (names : pairs.map Prod.fst = others.map Prod.fst) :
    pairs.map Prod.snd = others.map Prod.snd := by
  induction pairs generalizing others with
  | nil =>
      cases others with
      | nil => rfl
      | cons other rest => cases names
  | cons pair later ih =>
      cases others with
      | nil => cases names
      | cons other rest =>
          obtain ⟨name, names⟩ := List.cons.inj names
          obtain ⟨first, tails⟩ := List.cons.inj same
          dsimp only at first
          rw [name] at first
          rw [List.map_cons, List.map_cons, field_injective first, ih tails names]

theorem outlineAll_commentItems (comment : String) :
    Item.outlineAll (commentItems comment) = (writtenLines comment).map .comment := by
  unfold commentItems writtenLines
  split
  · rfl
  · rw [Item.outlineAll, Item.outline, Item.outlineAll, List.append_nil]

/-- A command with a comment for each line of its comment. -/
def outlinedCommand (address : UInt16) (entry : PlacedCommand) : Item :=
  .block none
    ((writtenLines entry.command.comment).map .comment ++
      fields (commandPairs address entry))

theorem outline_commandItem (address : UInt16) (entry : PlacedCommand) :
    (commandItem address entry).outline = [outlinedCommand address entry] := by
  rw [commandItem_eq, Item.outline, Item.outlineAll_append, outlineAll_commentItems]
  rfl

/-- What is read of the initializers. -/
def outlinedItems : Declaration → List Item
  | .commands address entries => entries.map (outlinedCommand address)
  | declaration => declaration.items

/-- What is read of a declaration. -/
def outlined (declaration : Declaration) : Item :=
  .block (some declaration.header) declaration.outlinedItems

theorem outline_item (declaration : Declaration) :
    declaration.item.outline = [declaration.outlined] := by
  rw [item, Item.outline, outlined]
  cases declaration with
  | bytes address rows =>
      rw [items, Item.outlineAll_map rowItem fun _ => rfl]
      rfl
  | commands address entries =>
      rw [items, Item.outlineAll_map _ (outline_commandItem address)]
      rfl
  | slaves entries =>
      rw [items, Item.outlineAll_map slaveItem fun _ => rfl]
      rfl
  | root => rfl

/-- The marked name of a transition. -/
def marked (name : String) : String := "ECT_ESMTRANS_" ++ name

theorem marked_injective {name other : String} (same : marked name = marked other) :
    name = other := by
  have texts := congrArg String.toList same
  simp only [marked, String.toList_append] at texts
  exact String.toList_inj.mp (List.append_cancel_left texts)

theorem head?_marked (name : String) : (marked name).toList.head? = some 'E' := by
  simp [marked]

theorem blank_not_mem_marked {name : String} (word : Text.IsWord name) :
    ' ' ∉ (marked name).toList := by
  intro member
  rw [marked, String.toList_append, List.mem_append] at member
  rcases member with fixed | named
  · exact absurd fixed (by decide)
  · exact absurd (word.2 ' ' named) (by decide)

theorem transitionMask_singleton (name : String) : transitionMask [name] = marked name := by
  simp [transitionMask, marked]

theorem transitionMask_cons_cons (name next : String) (later : List String) :
    transitionMask (name :: next :: later) =
      "(" ++ String.intercalate " | " ((name :: next :: later).map marked) ++ ")" := by
  have several : 1 < ((name :: next :: later).map marked).length := by simp
  simp only [transitionMask]
  exact if_pos several

/-- A parenthesis tells several transitions from a single one. -/
theorem transitionMask_singleton_ne (name first second : String) (later : List String) :
    transitionMask [name] ≠ transitionMask (first :: second :: later) := by
  intro same
  have starts := congrArg (·.toList.head?) same
  simp [transitionMask_singleton, transitionMask_cons_cons, head?_marked] at starts

theorem transitionMask_injective {first second : Command} (regular : first.Regular)
    (other : second.Regular)
    (same : transitionMask first.transitions = transitionMask second.transitions) :
    first.transitions = second.transitions := by
  obtain ⟨some, words⟩ := regular
  obtain ⟨others, otherWords⟩ := other
  have apart {names : List String} (words : ∀ name ∈ names, Text.IsWord name) :
      ∀ text ∈ names.map marked, ' ' ∉ text.toList := by
    intro text member
    obtain ⟨name, given, rfl⟩ := List.mem_map.mp member
    exact blank_not_mem_marked (words name given)
  -- A single name has no parentheses, and between parentheses the blanks tell the names apart.
  generalize first.transitions = names at *
  generalize second.transitions = otherNames at *
  rcases names with _ | ⟨name, _ | ⟨next, later⟩⟩
  · exact absurd rfl some
  · rcases otherNames with _ | ⟨otherName, _ | ⟨otherNext, rest⟩⟩
    · exact absurd rfl others
    · rw [transitionMask_singleton, transitionMask_singleton] at same
      rw [marked_injective same]
    · exact absurd same (transitionMask_singleton_ne _ _ _ _)
  · rcases otherNames with _ | ⟨otherName, _ | ⟨otherNext, rest⟩⟩
    · exact absurd rfl others
    · exact absurd same.symm (transitionMask_singleton_ne _ _ _ _)
    · rw [transitionMask_cons_cons, transitionMask_cons_cons] at same
      have texts := congrArg String.toList same
      simp only [String.toList_append] at texts
      have inner := List.append_cancel_left (List.append_cancel_right texts)
      have separator : " | ".toList = ' ' :: ['|', ' '] := rfl
      have same := Text.intercalate_injective separator (apart words) (apart otherWords)
        (by simp) (by simp) (String.toList_inj.mp inner)
      exact (List.map_inj_right fun _ _ => marked_injective).mp same

theorem flag_injective {first second : Bool}
    (same : (if first then "TRUE" else "FALSE") = if second then "TRUE" else "FALSE") :
    first = second := by
  cases first <;> cases second <;> simp_all

/-- The outline of a command determines the command but for its bytes. -/
theorem core_of_outlinedCommand {address otherAddress : UInt16} {entry other : PlacedCommand}
    (regular : entry.command.Regular) (otherRegular : other.command.Regular)
    (same : outlinedCommand address entry = outlinedCommand otherAddress other) :
    entry.command.core = other.command.core := by
  obtain ⟨lines, fields⟩ := comments_append_injective rfl rfl (Item.block.inj same).2
  have same : Declaration.fields (commandPairs address entry) =
      Declaration.fields (commandPairs otherAddress other) := fields
  have values := fields_injective same rfl
  simp only [commandPairs, List.map_cons, List.cons.injEq] at values
  obtain ⟨mask, flag, specifier, index, subIndex, timeout, size, -⟩ := values
  have transitions := transitionMask_injective regular otherRegular mask
  have completeAccess := flag_injective flag
  have specifiers := UInt8.toNat_inj.mp (Text.toString_injective specifier)
  have indices := UInt16.toNat_inj.mp (Text.hexWord_injective (UInt16.toNat_lt _)
    (UInt16.toNat_lt _) index)
  have subIndices := UInt8.toNat_inj.mp (Text.toString_injective subIndex)
  have timeouts := Int32.toInt_inj.mp (Text.toString_int_injective timeout)
  have sizes := Text.toString_injective size
  rw [Command.core, Command.core, lines, transitions, completeAccess, specifiers, indices,
    subIndices, timeouts, sizes]

theorem rowItem_injective {row other : Payload} (nonempty : row ≠ []) (otherNonempty : other ≠ [])
    (same : rowItem row = rowItem other) : row = other := by
  rw [rowItem_eq, rowItem_eq] at same
  have numbers := Text.listed_injective (by simpa using nonempty) (by simpa using otherNonempty)
    (Item.value.inj same)
  exact (List.map_inj_right fun _ _ => UInt8.toNat_inj.mp).mp numbers

/-- What the table of slaves says about a slave. -/
def identity (slave : Slave) : Slave × Nat :=
  ({ slave with commands := [] }, slave.commands.length)

theorem identity_of_slaveItem {slave other : Slave} (same : slaveItem slave = slaveItem other) :
    identity slave = identity other := by
  have fields : fields (slavePairs slave) = fields (slavePairs other) := (Item.block.inj same).2
  have values := fields_injective fields rfl
  simp only [slavePairs, List.map_cons, List.cons.injEq] at values
  obtain ⟨address, vendor, product, revision, -, count, -⟩ := values
  have addresses := UInt16.toNat_inj.mp (Text.toString_injective address)
  have vendors := UInt32.toNat_inj.mp (Text.toString_injective vendor)
  have products := UInt32.toNat_inj.mp (Text.toString_injective product)
  have revisions := UInt32.toNat_inj.mp (Text.toString_injective revision)
  have counts := Text.toString_injective count
  rw [identity, identity, addresses, vendors, products, revisions, counts]

end Declaration

end BusTables
