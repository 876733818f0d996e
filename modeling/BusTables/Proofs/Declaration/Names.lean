import BusTables.Proofs.Declaration.Plain
import Mathlib.Data.List.Flatten
import Mathlib.Data.List.Nodup

/-!
# Names of tables

The names that are declared are words.  The name of a table of a slave holds the address of the
slave, up to an underscore, so that no two addresses share a name (`nodup_slaveNames`).
-/

namespace BusTables

namespace Text

theorem isWord_numbered {before after : String} (starts : IsWord before) (number : Nat)
    (rest : IsWord after) : IsWord (before ++ toString number ++ after) := by
  refine ⟨by simp [starts.1], fun character member => ?_⟩
  simp only [String.toList_append, List.mem_append] at member
  rcases member with (first | digit) | last
  · exact starts.2 character first
  · exact isWordCharacter_of_isDigit (isDigit_of_mem_toString digit)
  · exact rest.2 character last

end Text

namespace Declaration

theorem isWord_bytesName (address : UInt16) : Text.IsWord (bytesName address) :=
  Text.isWord_numbered (by decide) address.toNat (by decide)

theorem isWord_commandsName (address : UInt16) : Text.IsWord (commandsName address) :=
  Text.isWord_numbered (by decide) address.toNat (by decide)

theorem isWord_name (declaration : Declaration) : Text.IsWord declaration.name := by
  cases declaration with
  | bytes address => exact isWord_bytesName address
  | commands address => exact isWord_commandsName address
  | slaves => exact (show Text.IsWord slavesName by decide)
  | root => exact (show Text.IsWord rootName by decide)

end Declaration

/-- The names of what is declared for a slave of the address. -/
def slaveNames (address : UInt16) : List String := [bytesName address, commandsName address]

theorem toList_of_mem_slaveNames {address : UInt16} {name : String}
    (member : name ∈ slaveNames address) :
    ∃ rest, name.toList = 's' :: ((toString address.toNat).toList ++ '_' :: rest) := by
  rcases List.mem_pair.mp member with rfl | rfl
  · exact ⟨"coeData".toList, by simp [bytesName]⟩
  · exact ⟨"coeCmds".toList, by simp [commandsName]⟩

/-- The address stands in the name, up to the underscore. -/
theorem address_unique {address other : UInt16} {name : String}
    (member : name ∈ slaveNames address) (otherMember : name ∈ slaveNames other) :
    address = other := by
  have apart (number : Nat) : '_' ∉ (toString number).toList :=
    Text.not_mem_toString number (by decide)
  obtain ⟨rest, first⟩ := toList_of_mem_slaveNames member
  obtain ⟨behind, second⟩ := toList_of_mem_slaveNames otherMember
  rw [first] at second
  obtain ⟨digits, -⟩ := Text.cut_unique (apart _) (apart _) (List.tail_eq_of_cons_eq second)
  exact UInt16.toNat_inj.mp (Text.toString_injective (String.toList_inj.mp digits))

theorem bytesName_ne_commandsName (address : UInt16) :
    bytesName address ≠ commandsName address := by
  intro same
  have ends := congrArg String.toList same
  simp only [bytesName, commandsName, String.toList_append] at ends
  exact absurd (List.append_cancel_left ends) (by decide)

theorem shared_not_mem_slaveNames {name : String} (shared : name ∈ [slavesName, rootName])
    (address : UInt16) : name ∉ slaveNames address := by
  have starts : ∀ name ∈ [slavesName, rootName], name.toList.head? = some 'e' := by decide
  intro member
  obtain ⟨rest, split⟩ := toList_of_mem_slaveNames member
  have first := starts name shared
  rw [split] at first
  cases first

theorem nodup_slaveNames {addresses : List UInt16} (distinct : addresses.Nodup) :
    (addresses.flatMap slaveNames ++ [slavesName, rootName]).Nodup := by
  rw [List.nodup_append, List.nodup_flatMap]
  refine ⟨⟨fun address _ => ?_, ?_⟩, by decide, ?_⟩
  · simpa [slaveNames] using bytesName_ne_commandsName address
  · exact distinct.imp fun different name member otherMember =>
      different (address_unique member otherMember)
  · rintro name ofSlave other shared rfl
    obtain ⟨address, -, member⟩ := List.mem_flatMap.mp ofSlave
    exact shared_not_mem_slaveNames shared address member

end BusTables
