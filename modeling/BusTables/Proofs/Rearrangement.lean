import BusTables.Proofs.Configuration.Order

/-!
# Lists with items moved

Items may be moved past items of other keys.  Then the items of each key are as before and in the
order in which they were.  Sorting by key undoes such a move (`mergeSort_eq`).  Where all keys
differ, every permutation is one (`of_nodup`).
-/

namespace BusTables

/-- The items of a list in another order, in which those of one key have kept theirs. -/
structure Rearranged {α κ : Type} [BEq κ] (key : α → κ) (first second : List α) : Prop where
  perm : first.Perm second
  stable : ∀ value, first.filter (key · == value) = second.filter (key · == value)

namespace Rearranged

variable {α κ : Type}

theorem refl [BEq κ] (key : α → κ) (items : List α) : Rearranged key items items :=
  ⟨.refl items, fun _ => rfl⟩

/-- An item is moved past another one of a different key. -/
theorem swap [BEq κ] [LawfulBEq κ] {key : α → κ} {item other : α} (apart : key item ≠ key other)
    (before after : List α) :
    Rearranged key (before ++ item :: other :: after) (before ++ other :: item :: after) := by
  refine ⟨List.Perm.append_left before (.swap other item after), fun value => ?_⟩
  rw [List.filter_append, List.filter_append]
  by_cases chosen : key item = value
  · have passed : ¬(key other == value) = true := by
      rw [beq_iff_eq, ← chosen]
      exact apart.symm
    simp [List.filter_cons, passed]
  · simp [List.filter_cons, chosen]

/-- Lists that start with the same item are rearranged behind it. -/
theorem tail [BEq κ] {key : α → κ} {item : α} {later rest : List α}
    (moved : Rearranged key (item :: later) (item :: rest)) : Rearranged key later rest := by
  refine ⟨moved.perm.cons_inv, fun value => ?_⟩
  have group := moved.stable value
  rw [List.filter_cons, List.filter_cons] at group
  split at group
  · exact (List.cons.inj group).2
  · exact group

/-- Where all keys differ, there is no order to keep. -/
theorem of_nodup [BEq κ] [LawfulBEq κ] {key : α → κ} {first second : List α}
    (distinct : (first.map key).Nodup) (perm : first.Perm second) :
    Rearranged key first second := by
  refine ⟨perm, fun value => ?_⟩
  have few : (first.filter (key · == value)).length ≤ 1 := by
    have keys : (first.filter (key · == value)).map key =
        List.replicate (first.filter (key · == value)).length value := by
      rw [List.eq_replicate_iff, List.length_map]
      refine ⟨rfl, fun other member => ?_⟩
      obtain ⟨item, chosen, rfl⟩ := List.mem_map.mp member
      exact beq_iff_eq.mp (List.mem_filter.mp chosen).2
    have nodup := distinct.sublist ((first.filter_sublist (p := (key · == value))).map key)
    rw [keys] at nodup
    exact List.nodup_replicate.mp nodup
  have group := perm.filter (key · == value)
  rcases single : first.filter (key · == value) with _ | ⟨item, _ | ⟨other, others⟩⟩
  · rw [single] at group
    exact group.nil_eq
  · rw [single] at group
    exact List.singleton_perm.mp group
  · rw [single] at few
    simp at few

section Sorted

variable {key : α → UInt16} {first second : List α}

/-- Among lists that are sorted by key, none is a rearrangement of another. -/
theorem eq_of_sorted (moved : Rearranged key first second)
    (sorted : first.Pairwise fun lower upper => key lower ≤ key upper)
    (ordered : second.Pairwise fun lower upper => key lower ≤ key upper) : first = second := by
  induction first generalizing second with
  | nil => exact moved.perm.nil_eq
  | cons item later ih =>
      cases second with
      | nil => exact moved.perm.eq_nil
      | cons other rest =>
          rw [List.pairwise_cons] at sorted ordered
          -- Both lists start with the least key there is, and then with the first item of it.
          have above : key item ≤ key other := by
            rcases List.mem_cons.mp (moved.perm.mem_iff.mpr List.mem_cons_self) with rfl | behind
            · exact UInt16.le_refl _
            · exact sorted.1 other behind
          have below : key other ≤ key item := by
            rcases List.mem_cons.mp (moved.perm.mem_iff.mp List.mem_cons_self) with rfl | behind
            · exact UInt16.le_refl _
            · exact ordered.1 item behind
          have least : key item = key other := UInt16.le_antisymm above below
          have group := moved.stable (key other)
          rw [List.filter_cons_of_pos (by simp [least]), List.filter_cons_of_pos (by simp)] at group
          obtain ⟨rfl, -⟩ := List.cons.inj group
          rw [ih moved.tail sorted.2 ordered.2]

theorem mergeSort (moved : Rearranged key first second) :
    Rearranged key (first.mergeSort (byKey key)) (second.mergeSort (byKey key)) := by
  refine ⟨?_, fun value => ?_⟩
  · exact ((List.mergeSort_perm first _).trans moved.perm).trans (List.mergeSort_perm second _).symm
  · rw [filter_mergeSort_byKey, filter_mergeSort_byKey, moved.stable]

/-- Sorting by key undoes a rearrangement. -/
theorem mergeSort_eq (moved : Rearranged key first second) :
    first.mergeSort (byKey key) = second.mergeSort (byKey key) :=
  moved.mergeSort.eq_of_sorted (pairwise_mergeSort_byKey key first)
    (pairwise_mergeSort_byKey key second)

end Sorted

end Rearranged

end BusTables
