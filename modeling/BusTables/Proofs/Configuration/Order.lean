import BusTables.Emission

/-!
# The order of slaves

Sorted by an address, items of equal address keep their order (`filter_mergeSort_byKey`).  It
makes no difference whether idle slaves are dropped before the slaves are sorted or after
(`busy_eq`).
-/

namespace BusTables

section Sorting

variable {α : Type} {le : α → α → Bool}

theorem takeWhile_append_of_split {test : α → Bool} {start rest : List α}
    (holds : ∀ item ∈ start, test item = true) (fails : ∀ item ∈ rest, test item = false) :
    (start ++ rest).takeWhile test = start := by
  rw [List.takeWhile_append_of_pos holds]
  cases rest with
  | nil => rw [List.takeWhile_nil, List.append_nil]
  | cons first later =>
      have stops : ¬test first = true := by simp [fails first List.mem_cons_self]
      rw [List.takeWhile_cons_of_neg stops, List.append_nil]

theorem splits_agree {item : α} {first second rest other : List α}
    (below : ∀ lower ∈ first, le item lower = false) (above : ∀ upper ∈ rest, le item upper = true)
    (under : ∀ lower ∈ second, le item lower = false)
    (beyond : ∀ upper ∈ other, le item upper = true)
    (same : first ++ rest = second ++ other) : first = second ∧ rest = other := by
  have starts {start upper : List α} (low : ∀ lower ∈ start, le item lower = false)
      (high : ∀ other ∈ upper, le item other = true) :
      (start ++ upper).takeWhile (!le item ·) = start := by
    apply takeWhile_append_of_split
    · intro lower member
      simp [low lower member]
    · intro other member
      simp [high other member]
  have equal : first = second := by rw [← starts below above, same, starts under beyond]
  subst equal
  exact ⟨rfl, List.append_cancel_left same⟩

theorem filter_mergeSort (trans : ∀ first second third : α,
      le first second = true → le second third = true → le first third = true)
    (total : ∀ first second : α, (le first second || le second first) = true)
    (test : α → Bool) (items : List α) :
    (items.mergeSort le).filter test = (items.filter test).mergeSort le := by
  -- Sorting puts the first item between the parts of the sorted rest, and there is only one
  -- place for it, so the filtered rest is split where the rest is.
  induction items with
  | nil => simp
  | cons item later ih =>
      obtain ⟨low, high, whole, rest, below⟩ := List.mergeSort_cons trans total item later
      have ordered := List.pairwise_mergeSort trans total (item :: later)
      rw [whole, List.pairwise_append, List.pairwise_cons] at ordered
      obtain ⟨-, ⟨above, -⟩, -⟩ := ordered
      cases chosen : test item with
      | false =>
          have dropped : ¬test item = true := by simp [chosen]
          rw [whole, List.filter_append, List.filter_cons_of_neg dropped,
            List.filter_cons_of_neg dropped, ← ih, rest, List.filter_append]
      | true =>
          obtain ⟨lower, upper, sorted, remaining, under⟩ :=
            List.mergeSort_cons trans total item (later.filter test)
          have order := List.pairwise_mergeSort trans total (item :: later.filter test)
          rw [sorted, List.pairwise_append, List.pairwise_cons] at order
          obtain ⟨-, ⟨beyond, -⟩, -⟩ := order
          have same : low.filter test ++ high.filter test = lower ++ upper := by
            rw [← List.filter_append, ← rest, ih, remaining]
          obtain ⟨lows, highs⟩ := splits_agree
            (fun other member => by simpa using below other (List.mem_filter.mp member).1)
            (fun other member => above other (List.mem_filter.mp member).1)
            (fun other member => by simpa using under other member) beyond same
          rw [whole, List.filter_append, List.filter_cons_of_pos chosen,
            List.filter_cons_of_pos chosen, sorted, lows, highs]

end Sorting

section Keys

variable {α : Type} (key : α → UInt16)

/-- Items are compared by their keys. -/
def byKey (first second : α) : Bool := key first ≤ key second

theorem byKey_trans (first second third : α) (low : byKey key first second = true)
    (high : byKey key second third = true) : byKey key first third = true := by
  simp only [byKey, decide_eq_true_eq, UInt16.le_iff_toNat_le] at low high ⊢
  exact Nat.le_trans low high

theorem byKey_total (first second : α) :
    (byKey key first second || byKey key second first) = true := by
  simp only [byKey, Bool.or_eq_true, decide_eq_true_eq, UInt16.le_iff_toNat_le]
  exact Nat.le_total _ _

theorem pairwise_mergeSort_byKey (items : List α) :
    (items.mergeSort (byKey key)).Pairwise fun first second => key first ≤ key second := by
  have order := List.pairwise_mergeSort (byKey_trans key) (byKey_total key) items
  simpa [byKey] using order

/-- Items of one key keep their order. -/
theorem filter_mergeSort_byKey (items : List α) (value : UInt16) :
    (items.mergeSort (byKey key)).filter (key · == value) = items.filter (key · == value) := by
  rw [filter_mergeSort (byKey_trans key) (byKey_total key)]
  apply List.mergeSort_of_pairwise
  rw [List.pairwise_iff_forall_sublist]
  intro first second pair
  have keys (item : α) (member : item ∈ [first, second]) : key item = value := by
    simpa using (List.mem_filter.mp (pair.subset member)).2
  rw [byKey, keys first (by simp), keys second (by simp), decide_eq_true_eq]
  exact UInt16.le_refl value

end Keys

namespace Configuration

theorem sorted_eq (configuration : Configuration) :
    configuration.sorted = configuration.slaves.mergeSort (byKey Slave.address) :=
  rfl

theorem busy_eq (configuration : Configuration) :
    configuration.busy =
      (configuration.slaves.filter (!·.isIdle)).mergeSort (byKey Slave.address) := by
  rw [busy, sorted_eq, filter_mergeSort (byKey_trans _) (byKey_total _)]

end Configuration

end BusTables
