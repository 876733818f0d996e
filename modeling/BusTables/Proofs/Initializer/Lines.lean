import BusTables.Proofs.Initializer.Layout
import BusTables.Proofs.Text.Lines

/-!
# The lines of a layout

A layout is a list of lines, each of which belongs to one item: the one line of a value, the lines
of a comment, or what opens and closes a block (`toList_layout`).  The characters of a line beyond
the texts of its item are blanks, braces and separators, so lines are whole as long as the texts
hold no line end (`whole_lines`).
-/

namespace BusTables.Initializer

/-- A line at a depth. -/
def lineAt (columns depth : Nat) (text : List Char) : List Char :=
  List.replicate (columns * depth) ' ' ++ text

/-- The last line of a value or a block with its separator; at file scope a blank line follows. -/
def ended (depth : Nat) (isLast : Bool) (line : List Char) : List (List Char) :=
  if depth = 0 then [line ++ [';'], []] else if isLast then [line] else [line ++ [',']]

/-- What stands on the line that opens a block. -/
def openingText (header : Option String) : List Char :=
  (header.map fun text => text.toList ++ [' ', '=', ' ']).getD [] ++ ['\x7b']

/-- The line of a comment behind its mark. -/
def commentText (line : String) : List Char :=
  ['/', '/', ' '] ++ line.toList

mutual

/-- The lines of an item at a depth; `isLast` tells that no item follows in the block. -/
def Item.lines (columns depth : Nat) (isLast : Bool) : Item → List (List Char)
  | .value text => ended depth isLast (lineAt columns depth text.toList)
  | .comment text => (commentLines text).map fun line => lineAt columns depth (commentText line)
  | .block header items =>
      lineAt columns depth (openingText header) ::
        (Item.allLines columns (depth + 1) items ++
          ended depth isLast (lineAt columns depth ['\x7d']))

/-- The lines of items at a depth. -/
def Item.allLines (columns depth : Nat) : List Item → List (List Char)
  | [] => []
  | item :: later =>
      item.lines columns depth later.isEmpty ++ Item.allLines columns depth later

end

@[simp] theorem toList_indentation (columns depth : Nat) :
    (indentation columns depth).toList = List.replicate (columns * depth) ' ' := by
  simp [indentation, repeated]

theorem unlines_ended (depth : Nat) (isLast : Bool) (line : List Char) :
    Text.unlines (ended depth isLast line) =
      line ++ (if depth = 0 then ";\n\n" else if isLast then "\n" else ",\n").toList := by
  unfold ended
  split
  · simp
  · split <;> simp

theorem toList_layoutComment (columns depth : Nat) (text : String) :
    (layoutComment columns depth text ++ "\n").toList =
      Text.unlines ((commentLines text).map fun line =>
        lineAt columns depth (commentText line)) := by
  unfold layoutComment
  cases lines : commentLines text with
  | nil => exact absurd lines (commentLines_ne_nil text)
  | cons line later =>
      rw [List.map_cons, Text.toList_intercalate_lines]
      simp [lineAt, commentText, Function.comp_def]

mutual

/-- The layout of an item and what follows it are the lines of the item. -/
theorem toList_layout (columns depth : Nat) (isLast : Bool) (item : Item) :
    (item.layout columns depth ++ item.ending depth isLast).toList =
      Text.unlines (item.lines columns depth isLast) := by
  match item with
  | .value text =>
      rw [Item.lines, unlines_ended, String.toList_append]
      simp [Item.layout, Item.ending, lineAt]
  | .comment text => exact toList_layoutComment columns depth text
  | .block header items =>
      have inner := toList_layoutAll columns (depth + 1) items
      rw [Item.lines, Text.unlines_cons, Text.unlines_append, unlines_ended, ← inner]
      cases header <;>
        simp [Item.layout, Item.ending, layoutOpening, lineAt, openingText]

theorem toList_layoutAll (columns depth : Nat) (items : List Item) :
    (Item.layoutAll columns depth items).toList =
      Text.unlines (Item.allLines columns depth items) := by
  match items with
  | [] => rfl
  | item :: later =>
      rw [Item.layoutAll, Item.allLines, Text.unlines_append, String.toList_append,
        toList_layout columns depth later.isEmpty item, toList_layoutAll columns depth later]

end

theorem toList_layoutFile (columns : Nat) (items : List Item) :
    (layoutFile columns items).toList = Text.unlines ([] :: Item.allLines columns 0 items) := by
  rw [layoutFile, String.toList_append, toList_layoutAll]
  rfl

end BusTables.Initializer
