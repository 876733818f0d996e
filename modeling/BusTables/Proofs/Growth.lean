/-!
# Lists that grow at their end

Generated text only grows at its end, and what may come next is decided by what stands there
already.  What is so decided for each item at its turn holds of each item in the finished list
(`Grown.of_split`).
-/

namespace BusTables

/-- The items come one by one, each as those before it allow. -/
inductive Grown {α : Type} (allowed : List α → α → Prop) : List α → Prop where
  | nil : Grown allowed []
  | snoc {before : List α} {item : α} (earlier : Grown allowed before)
      (next : allowed before item) : Grown allowed (before ++ [item])

theorem Grown.of_split {α : Type} {allowed : List α → α → Prop} {items : List α}
    (grown : Grown allowed items) :
    ∀ {before : List α} {item : α} {after : List α},
      items = before ++ item :: after → Grown allowed before ∧ allowed before item := by
  induction grown with
  | nil =>
      intro before item after split
      cases before <;> cases split
  | snoc earlier next ih =>
      intro before item after split
      rcases List.eq_nil_or_concat after with rfl | ⟨rest, last, rfl⟩
      · obtain ⟨rfl, last⟩ := List.append_inj' split rfl
        rw [← List.head_eq_of_cons_eq last]
        exact ⟨earlier, next⟩
      · rw [List.concat_eq_append, ← List.cons_append, ← List.append_assoc] at split
        exact ih (List.append_inj' split rfl).1

end BusTables
