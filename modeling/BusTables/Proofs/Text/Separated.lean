/-!
# Texts with a separator between them

Texts with a separator between them begin as the first one and end as the last one.  They are
found again if none of them holds the first character of the separator
(`intercalate_injective`).
-/

namespace BusTables.Text

theorem mem_intercalate {separator : String} {texts : List String} {character : Char}
    (member : character ∈ (String.intercalate separator texts).toList) :
    (∃ text ∈ texts, character ∈ text.toList) ∨ character ∈ separator.toList := by
  induction texts with
  | nil => exact absurd member List.not_mem_nil
  | cons text later ih =>
      cases later with
      | nil =>
          rw [String.intercalate_singleton] at member
          exact .inl ⟨text, List.mem_singleton.mpr rfl, member⟩
      | cons next rest =>
          rw [String.intercalate_cons_cons] at member
          simp only [String.toList_append, List.mem_append] at member
          rcases member with (first | between) | others
          · exact .inl ⟨text, List.mem_cons_self, first⟩
          · exact .inr between
          · rcases ih others with ⟨other, among, inside⟩ | between
            · exact .inl ⟨other, List.mem_cons_of_mem text among, inside⟩
            · exact .inr between

theorem head?_intercalate (separator : String) {text : String} (later : List String)
    (full : text ≠ "") :
    (String.intercalate separator (text :: later)).toList.head? = text.toList.head? := by
  have nonempty : text.toList ≠ [] := by simpa using full
  cases later with
  | nil => rw [String.intercalate_singleton]
  | cons next rest =>
      rw [String.intercalate_cons_cons, String.append_assoc, String.toList_append,
        List.head?_append, List.head?_eq_some_head nonempty, Option.some_or]

theorem getLast?_intercalate (separator : String) {texts : List String} (some : texts ≠ [])
    (full : ∀ text ∈ texts, text ≠ "") :
    ∃ text ∈ texts,
      (String.intercalate separator texts).toList.getLast? = text.toList.getLast? := by
  induction texts with
  | nil => exact absurd rfl some
  | cons text later ih =>
      cases later with
      | nil =>
          rw [String.intercalate_singleton]
          exact ⟨text, List.mem_singleton.mpr rfl, rfl⟩
      | cons next rest =>
          obtain ⟨last, among, ends⟩ := ih (List.cons_ne_nil next rest)
            fun other member => full other (List.mem_cons_of_mem text member)
          have nonempty : last.toList ≠ [] := by
            simpa using full last (List.mem_cons_of_mem text among)
          refine ⟨last, List.mem_cons_of_mem text among, ?_⟩
          rw [String.intercalate_cons_cons, String.toList_append, List.getLast?_append, ends,
            List.getLast?_eq_some_getLast nonempty, Option.some_or]

theorem cut_unique {α : Type} {first second rest other : List α} {separator : α}
    (apart : separator ∉ first) (distinct : separator ∉ second)
    (same : first ++ separator :: rest = second ++ separator :: other) :
    first = second ∧ rest = other := by
  induction first generalizing second with
  | nil =>
      cases second with
      | nil => exact ⟨rfl, List.tail_eq_of_cons_eq same⟩
      | cons head tail => exact absurd (List.head_eq_of_cons_eq same ▸ List.mem_cons_self) distinct
  | cons head tail ih =>
      cases second with
      | nil => exact absurd (List.head_eq_of_cons_eq same ▸ List.mem_cons_self) apart
      | cons other others =>
          obtain ⟨heads, tails⟩ := List.cons.inj same
          obtain ⟨equal, left⟩ := ih (fun member => apart (List.mem_cons_of_mem head member))
            (fun member => distinct (List.mem_cons_of_mem other member)) tails
          exact ⟨by rw [heads, equal], left⟩

/-- Texts without the first character of the separator are found again. -/
theorem intercalate_injective {mark : Char} {blanks : List Char} {separator : String}
    (starts : separator.toList = mark :: blanks) {first second : List String}
    (apart : ∀ text ∈ first, mark ∉ text.toList) (distinct : ∀ text ∈ second, mark ∉ text.toList)
    (some : first ≠ []) (other : second ≠ [])
    (same : String.intercalate separator first = String.intercalate separator second) :
    first = second := by
  induction first generalizing second with
  | nil => exact absurd rfl some
  | cons text later ih =>
      obtain ⟨head, tail, rfl⟩ := List.exists_cons_of_ne_nil other
      have apartText := apart text List.mem_cons_self
      have apartHead := distinct head List.mem_cons_self
      cases later with
      | nil =>
          cases tail with
          | nil => simpa using same
          | cons next rest =>
              rw [String.intercalate_singleton, String.intercalate_cons_cons] at same
              refine absurd ?_ apartText
              simp [same, starts]
      | cons following remaining =>
          cases tail with
          | nil =>
              rw [String.intercalate_singleton, String.intercalate_cons_cons] at same
              refine absurd ?_ apartHead
              simp [← same, starts]
          | cons next rest =>
              rw [String.intercalate_cons_cons, String.intercalate_cons_cons, ← String.toList_inj]
                at same
              simp only [String.toList_append, starts, List.append_assoc, List.cons_append] at same
              obtain ⟨equal, left⟩ := cut_unique apartText apartHead same
              have joined := String.toList_inj.mp (List.append_cancel_left left)
              have tails := ih
                (fun other member => apart other (List.mem_cons_of_mem text member))
                (fun other member => distinct other (List.mem_cons_of_mem head member))
                (List.cons_ne_nil following remaining) (List.cons_ne_nil next rest) joined
              rw [String.toList_inj.mp equal, tails]

end BusTables.Text
