import BusTables.Proofs.Initializer.Layout

/-!
# A walk over items

Walking over items with the operations of the writer writes the layout of the items
(`walk_writes_layout`).  No operation of the walk is refused, and at its end the writer stands at
file scope again with nothing due, whatever the items hold (`performs_items`).
-/

namespace BusTables.Initializer

/-- Operations that are accepted one after the other, what they write, and the writer after
them. -/
inductive Performs : Writer → List Operation → List Piece → Writer → Prop where
  | nil (writer : Writer) : Performs writer [] [] writer
  | cons {writer next last : Writer} {operation : Operation} {later : List Operation}
      {pieces more : List Piece} (accepted : writer.perform operation = .ok (pieces, next))
      (rest : Performs next later more last) :
      Performs writer (operation :: later) (pieces ++ more) last

namespace Performs

theorem single {writer next : Writer} {operation : Operation} {pieces : List Piece}
    (accepted : writer.perform operation = .ok (pieces, next)) :
    Performs writer [operation] pieces next := by
  simpa using Performs.cons accepted (.nil next)

theorem append {writer next last : Writer} {operations later : List Operation}
    {pieces more : List Piece} (first : Performs writer operations pieces next)
    (rest : Performs next later more last) :
    Performs writer (operations ++ later) (pieces ++ more) last := by
  induction first with
  | nil => exact rest
  | cons accepted _ ih =>
      rw [List.cons_append, List.append_assoc]
      exact .cons accepted (ih rest)

/-- Where nothing is refused, a run does all that is asked. -/
theorem run_eq {writer last : Writer} {operations : List Operation} {pieces : List Piece}
    (performed : Performs writer operations pieces last) :
    writer.run operations = (pieces, last) := by
  induction performed with
  | nil => rfl
  | @cons writer next last operation later pieces more accepted _ ih =>
      have attempted : writer.attempt operation = (pieces, next) := by
        rw [Writer.attempt, accepted]
      rw [Writer.run_cons, attempted, ih]

end Performs

namespace Writer

/-- A closing brace behind the items of a block leads back to the depth of the block. -/
theorem perform_closeBlock (writer : Writer) (pending : Bool) :
    (writer.opened.settle pending).perform (.closeBlock 1) =
      .ok ([.lineEnd, writer.indentation, .closeBraces 1], writer.settle true) :=
  rfl

mutual

/-- The operations of an item are accepted, and the writer is as deep after them as before. -/
theorem performs_item (writer : Writer) (item : Item) :
    ∃ pieces pending, Performs writer item.operations pieces (writer.settle pending) := by
  match item with
  | .value text => exact ⟨_, !text.isEmpty, .single rfl⟩
  | .comment text =>
      have settled : (writer.writeComment (commentLines text)).2 = writer.settle false := by
        cases lines : commentLines text with
        | nil => exact absurd lines (commentLines_ne_nil text)
        | cons line later => exact (writer.writeComment_cons line later).2
      refine ⟨(writer.writeComment (commentLines text)).1, false, .single ?_⟩
      rw [← settled]
      rfl
  | .block header items =>
      obtain ⟨inner, pending, performed⟩ := performs_items writer.opened items
      have closed := performed.append (.single (perform_closeBlock writer pending))
      exact ⟨_, true, .cons rfl closed⟩

theorem performs_items (writer : Writer) (items : List Item) :
    ∃ pieces pending,
      Performs writer (Item.allOperations items) pieces (writer.settle pending) := by
  match items with
  | [] => exact ⟨[], writer.pending, .nil writer⟩
  | item :: later =>
      obtain ⟨pieces, due, first⟩ := performs_item writer item
      obtain ⟨more, pending, rest⟩ := performs_items (writer.settle due) later
      exact ⟨pieces ++ more, pending, first.append rest⟩

end

end Writer

/-- What a walk over items writes is the layout of the items. -/
theorem walk_writes_layout (columns : Nat) {items : List Item}
    (full : ∀ text ∈ Item.allValues items, text ≠ "") :
    ∃ pieces, Performs (.fresh columns) (Item.allOperations items ++ [.newline]) pieces
        (.fresh columns) ∧
      Piece.joined pieces = layoutFile columns items := by
  obtain ⟨pieces, pending, performed⟩ := Writer.performs_items (.fresh columns) items
  have ended : ((Writer.fresh columns).settle pending).perform .newline =
      .ok (((Writer.fresh columns).settle pending).lineBreak, .fresh columns) :=
    rfl
  have whole := performed.append (.single ended)
  refine ⟨_, whole, ?_⟩
  rw [← Writer.layout_of_run columns items full, whole.run_eq]

/-- Comments come first, between the others and last, and a block is empty. -/
theorem walk_writes_layout_comments :
    ∃ pieces, Performs (.fresh 3)
        (Item.allOperations [.comment "a", .block (some "t x") [.value "1", .comment "b\nc",
          .block none [], .comment "d"]] ++ [.newline]) pieces (.fresh 3) ∧
      Piece.joined pieces =
        "\n// a\nt x = \x7b\n   1,\n   // b\n   // c\n   \x7b\n   \x7d,\n   // d\n\x7d;\n\n" := by
  obtain ⟨pieces, performed, written⟩ :=
    @walk_writes_layout 3 [.comment "a", .block (some "t x") [.value "1", .comment "b\nc",
      .block none [], .comment "d"]] (by simp [Item.allValues, Item.values])
  refine ⟨pieces, performed, ?_⟩
  rw [written]
  decide +kernel

end BusTables.Initializer
