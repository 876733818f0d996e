import BusTables.Proofs.Emission.References
import BusTables.Proofs.Rearrangement

/-!
# The text does not depend on the order of slaves

Slaves that have commands are sorted before anything is written, and slaves that have none leave no
trace in what is declared, nor in the separators between the declarations around them.  So the text
hangs on the busy slaves alone (`text_of_busy`), and configurations whose busy slaves are the same
up to the order of different addresses have one text (`text_rearranged`).
-/

namespace BusTables

open Initializer

namespace Configuration

variable {first second : Configuration}

theorem items_of_busy (same : first.busy = second.busy) : first.items = second.items := by
  unfold items
  rw [declarations_eq, declarations_eq, shared, shared]
  rw [slavesDeclaration?, slavesDeclaration?, same]

/-- Slaves with commands that are moved past others are sorted into the same order. -/
theorem busy_of_rearranged (moved : Rearranged Slave.address
    (first.slaves.filter (!·.isIdle)) (second.slaves.filter (!·.isIdle))) :
    first.busy = second.busy := by
  rw [busy_eq, busy_eq]
  exact moved.mergeSort_eq

end Configuration

namespace Emission

/-- The text hangs on the busy slaves alone. -/
theorem text_of_busy {first second : Configuration} (same : first.busy = second.busy)
    (header : String) : text header first = text header second := by
  rw [text_eq, text_eq, Configuration.items_of_busy same]

end Emission

/-- Configurations whose slaves with commands are the same, those of one address in the same order,
have one text.  So the order does not matter at all where addresses differ, and slaves without
commands may stand anywhere. -/
theorem text_rearranged (header : String) :
    (∀ first second : Configuration,
        Rearranged Slave.address (first.slaves.filter (!·.isIdle))
          (second.slaves.filter (!·.isIdle)) →
        Emission.text header first = Emission.text header second) ∧
      (∀ first second : Configuration, first.Distinct → first.slaves.Perm second.slaves →
        Emission.text header first = Emission.text header second) ∧
      ∀ (before after : List Slave) (idle : Slave), idle.commands = [] →
        Emission.text header ⟨before ++ idle :: after⟩ =
          Emission.text header ⟨before ++ after⟩ := by
  have moved {first second : Configuration} (given : Rearranged Slave.address
      (first.slaves.filter (!·.isIdle)) (second.slaves.filter (!·.isIdle))) :
      Emission.text header first = Emission.text header second :=
    Emission.text_of_busy (Configuration.busy_of_rearranged given) header
  refine ⟨fun first second given => moved given, ?_, ?_⟩
  · intro first second distinct perm
    exact moved (.of_nodup distinct (perm.filter _))
  · intro before after idle none
    have gone : (before ++ idle :: after).filter (!·.isIdle) =
        (before ++ after).filter (!·.isIdle) := by
      have empty : idle.isIdle = true := List.isEmpty_iff.mpr none
      rw [List.filter_append, List.filter_append, List.filter_cons_of_neg (by simp [empty])]
    refine moved ?_
    rw [gone]
    exact .refl _ _

/-- A slave with one command at an address. -/
def commandedAt (address : UInt16) (comment : String) : Slave :=
  ⟨address, 2, 3, 4, [⟨comment, ["PS"], false, 1, 0x1c12, 0, 0, [5]⟩]⟩

/-- Two slaves of one address keep their order, and a third one moves past the first of them. -/
theorem text_rearranged_tied :
    Rearranged Slave.address [commandedAt 2 "a", commandedAt 1 "b", commandedAt 2 "c"]
        [commandedAt 1 "b", commandedAt 2 "a", commandedAt 2 "c"] ∧
      Emission.text "ecat.h" ⟨[commandedAt 2 "a", ⟨7, 2, 3, 4, []⟩, commandedAt 1 "b",
          commandedAt 2 "c"]⟩ =
        Emission.text "ecat.h" ⟨[commandedAt 1 "b", commandedAt 2 "a", commandedAt 2 "c"]⟩ := by
  have moved := @Rearranged.swap _ _ _ _ Slave.address (commandedAt 2 "a") (commandedAt 1 "b")
    (by decide) [] [commandedAt 2 "c"]
  exact ⟨moved, (text_rearranged "ecat.h").1 _ _ moved⟩

end BusTables
