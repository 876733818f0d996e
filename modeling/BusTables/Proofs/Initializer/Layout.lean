import BusTables.Initializer.Layout
import BusTables.Initializer.Writer

/-!
# The writer keeps to the layout

The writer decides each separator one operation late and sees no tree.  Run on the operations of
items, it nevertheless writes their layout (`layout_of_run`).  The invariant is `run_items`: what
is written, together with what ends the last line, is the line break that was due before, followed
by the layout at the depth of the writer.
-/

namespace BusTables.Initializer

mutual

/-- The texts of the values in an item. -/
def Item.values : Item → List String
  | .value text => [text]
  | .comment _ => []
  | .block _ items => Item.allValues items

/-- The texts of the values in items. -/
def Item.allValues : List Item → List String
  | [] => []
  | item :: later => item.values ++ Item.allValues later

end

theorem Item.mem_allValues {items : List Item} {text : String} :
    text ∈ Item.allValues items ↔ ∃ item ∈ items, text ∈ item.values := by
  induction items with
  | nil => simp [Item.allValues]
  | cons item later ih => simp [Item.allValues, ih]

/-- The item is a comment. -/
def Item.isComment : Item → Bool
  | .comment _ => true
  | _ => false

@[simp] theorem Piece.joined_cons (piece : Piece) (later : List Piece) :
    Piece.joined (piece :: later) = piece.text ++ Piece.joined later := by
  simp [Piece.joined]

theorem commentLines_ne_nil (text : String) : commentLines text ≠ [] := by
  simp [commentLines, List.splitOn_ne_nil]

namespace Writer

/-- What ends the last line of items: inside braces the closing brace does, and no comma. -/
def lastBreak (writer : Writer) : String :=
  if 0 < writer.depth then "\n" else Piece.joined writer.lineBreak

@[simp] theorem columns_settle (writer : Writer) (pending : Bool) :
    (writer.settle pending).columns = writer.columns :=
  rfl

@[simp] theorem depth_settle (writer : Writer) (pending : Bool) :
    (writer.settle pending).depth = writer.depth :=
  rfl

@[simp] theorem settle_settle (writer : Writer) (first second : Bool) :
    (writer.settle first).settle second = writer.settle second :=
  rfl

/-- Nothing is due after a comment or an opening brace but the end of the line. -/
@[simp] theorem lineBreak_settle_false (writer : Writer) :
    (writer.settle false).lineBreak = [.lineEnd] :=
  rfl

/-- What is due after an item is what the layout puts behind it. -/
theorem settle_break (writer : Writer) (item : Item) (isLast : Bool) :
    (if isLast then (writer.settle (!item.isComment)).lastBreak
      else Piece.joined (writer.settle (!item.isComment)).lineBreak) =
      item.ending writer.depth isLast := by
  cases item <;> by_cases nested : 0 < writer.depth <;> cases isLast <;>
    simp_all [Item.isComment, Item.ending, lastBreak, lineBreak, settle, Piece.text,
      Nat.pos_iff_ne_zero]

/-- The lines of a comment stand below each other, and nothing is due behind them. -/
theorem writeComment_cons (writer : Writer) (line : String) (later : List String) :
    Piece.joined (writer.writeComment (line :: later)).1 =
        Piece.joined writer.lineBreak ++
          String.intercalate "\n" ((line :: later).map fun line =>
            Initializer.indentation writer.columns writer.depth ++ "// " ++ line) ∧
      (writer.writeComment (line :: later)).2 = writer.settle false := by
  induction later generalizing writer line with
  | nil =>
      simp [writeComment, Writer.indentation, Initializer.indentation, Piece.text,
        String.append_assoc]
  | cons next rest ih =>
      obtain ⟨written, after⟩ := ih (writer.settle false) next
      rw [writeComment]
      constructor
      · simp only [Piece.joined_append, written, List.map_cons, String.intercalate_cons_cons]
        simp [Writer.indentation, Initializer.indentation, Piece.text, String.append_assoc]
      · simpa using after

theorem run_comment (writer : Writer) (text : String) :
    Piece.joined (writer.run [.comment text]).1 =
        Piece.joined writer.lineBreak ++ layoutComment writer.columns writer.depth text ∧
      (writer.run [.comment text]).2 = writer.settle false := by
  cases lines : commentLines text with
  | nil => exact absurd lines (commentLines_ne_nil text)
  | cons line later =>
      obtain ⟨written, after⟩ := writer.writeComment_cons line later
      simp [run_cons, attempt, perform, layoutComment, lines, written, after]

/-- The writer behind an opening brace. -/
def opened (writer : Writer) : Writer :=
  { writer with depth := writer.depth + 1, pending := false }

@[simp] theorem columns_opened (writer : Writer) : writer.opened.columns = writer.columns :=
  rfl

@[simp] theorem depth_opened (writer : Writer) : writer.opened.depth = writer.depth + 1 :=
  rfl

@[simp] theorem lineBreak_opened (writer : Writer) : writer.opened.lineBreak = [.lineEnd] :=
  rfl

@[simp] theorem lastBreak_opened_settle (writer : Writer) (pending : Bool) :
    (writer.opened.settle pending).lastBreak = "\n" := by
  simp [lastBreak]

@[simp] theorem lastBreak_opened (writer : Writer) : writer.opened.lastBreak = "\n" :=
  writer.lastBreak_opened_settle false

/-- A block is laid out where the writer stands if its items are laid out one level deeper. -/
theorem run_block (writer : Writer) (header : Option String) (items : List Item) {pending : Bool}
    (inside : Piece.joined (writer.opened.run (Item.allOperations items)).1 ++ "\n" =
      "\n" ++ Item.layoutAll writer.columns (writer.depth + 1) items)
    (after : (writer.opened.run (Item.allOperations items)).2 = writer.opened.settle pending) :
    Piece.joined (writer.run (Item.block header items).operations).1 =
        Piece.joined writer.lineBreak ++
          (Item.block header items).layout writer.columns writer.depth ∧
      (writer.run (Item.block header items).operations).2 = writer.settle true := by
  let before := writer.lineBreak ++ [writer.indentation] ++ (header.map Piece.header).toList ++
    [.openBraces 1]
  let inner := (writer.opened.run (Item.allOperations items)).1
  have closed : (writer.opened.settle pending).run [.closeBlock 1] =
      ([.lineEnd, writer.indentation, .closeBraces 1], writer.settle true) :=
    rfl
  have split : writer.run (Item.block header items).operations =
      (before ++ (inner ++ [.lineEnd, writer.indentation, .closeBraces 1]),
        writer.settle true) := by
    rw [Item.operations, run_cons]
    change (before ++ (writer.opened.run _).1, (writer.opened.run _).2) = _
    rw [run_append, after, closed]
  have opening : Piece.joined before ++ "\n" =
      Piece.joined writer.lineBreak ++ layoutOpening writer.columns writer.depth header := by
    cases header <;>
      simp [before, layoutOpening, Writer.indentation, Initializer.indentation, Piece.text,
        repeated, String.append_assoc]
  have closing : Piece.joined [.lineEnd, writer.indentation, .closeBraces 1] =
      "\n" ++ (Initializer.indentation writer.columns writer.depth ++ "\x7d") := by
    simp [Writer.indentation, Initializer.indentation, Piece.text, repeated]
  rw [split]
  refine ⟨?_, rfl⟩
  calc Piece.joined (before ++ (inner ++ [.lineEnd, writer.indentation, .closeBraces 1]))
      = Piece.joined before ++ (Piece.joined inner ++ "\n") ++
          (Initializer.indentation writer.columns writer.depth ++ "\x7d") := by
        rw [Piece.joined_append before, Piece.joined_append inner, closing]
        simp only [String.append_assoc]
    _ = (Piece.joined before ++ "\n") ++
          (Item.layoutAll writer.columns (writer.depth + 1) items ++
            (Initializer.indentation writer.columns writer.depth ++ "\x7d")) := by
        rw [inside]
        simp only [String.append_assoc]
    _ = _ := by
        rw [opening, Item.layout]
        simp only [String.append_assoc]

mutual

/-- An item is laid out where the writer stands, and its separator stays due. -/
theorem run_item (writer : Writer) (item : Item) (full : ∀ text ∈ item.values, text ≠ "") :
    Piece.joined (writer.run item.operations).1 =
        Piece.joined writer.lineBreak ++ item.layout writer.columns writer.depth ∧
      (writer.run item.operations).2 = writer.settle (!item.isComment) := by
  match item with
  | .value text =>
      have nonempty : text.isEmpty = false := by simpa [Item.values] using full
      simp [Item.operations, run_cons, attempt, perform, Item.layout, Item.isComment,
        Writer.indentation, Initializer.indentation, Piece.text, nonempty]
  | .comment text => exact run_comment writer text
  | .block header items =>
      obtain ⟨written, pending, after⟩ := run_items (writer.opened) items
        (by simpa [Item.values] using full)
      refine run_block writer header items ?_ after
      rw [after, lastBreak_opened_settle] at written
      simpa [Piece.text] using written

theorem run_items (writer : Writer) (items : List Item)
    (full : ∀ text ∈ Item.allValues items, text ≠ "") :
    Piece.joined (writer.run (Item.allOperations items)).1 ++
          (writer.run (Item.allOperations items)).2.lastBreak =
        (if items.isEmpty then writer.lastBreak else Piece.joined writer.lineBreak) ++
          Item.layoutAll writer.columns writer.depth items ∧
      ∃ pending, (writer.run (Item.allOperations items)).2 = writer.settle pending := by
  match items with
  | [] => exact ⟨by simp [Item.allOperations, Item.layoutAll], writer.pending, rfl⟩
  | item :: later =>
      simp only [Item.allValues, List.mem_append] at full
      have first := run_item writer item fun text member => full text (.inl member)
      obtain ⟨rest, pending, after⟩ := run_items (writer.settle (!item.isComment)) later
        fun text member => full text (.inr member)
      rw [Item.allOperations, run_append, first.2]
      refine ⟨?_, pending, after⟩
      -- What was due behind the first item is written by the first operation of the rest, or is
      -- the end of the last line.
      rw [Piece.joined_append, String.append_assoc, rest, settle_break, first.1]
      simp [Item.layoutAll, String.append_assoc]

end

theorem layout_of_run (columns : Nat) (items : List Item)
    (full : ∀ text ∈ Item.allValues items, text ≠ "") :
    Piece.joined ((fresh columns).run (Item.allOperations items ++ [.newline])).1 =
      layoutFile columns items := by
  obtain ⟨written, pending, after⟩ := run_items (fresh columns) items full
  have ended : Piece.joined (((fresh columns).settle pending).run [.newline]).1 =
      ((fresh columns).settle pending).lastBreak := by
    simp [run_cons, attempt, perform, lastBreak, fresh]
  rw [run_append, Piece.joined_append, after, ended, ← after, written]
  cases items <;> simp [layoutFile, lastBreak, lineBreak, fresh, Piece.text]

end Writer

end BusTables.Initializer
