import BusTables.Text.Blank

/-!
# Items of initializers

Generated text consists of items: values such as one field or one row of bytes, comments, and
blocks in braces that contain items again.  A block at file scope has a header, to which the
block is assigned.
-/

namespace BusTables.Initializer

/-- A value, a comment, or a block of items. -/
inductive Item where
  | value (text : String)
  | comment (text : String)
  | block (header : Option String) (items : List Item)
  deriving Repr, BEq

/-- So many times the same character. -/
def repeated (count : Nat) (character : Char) : String :=
  String.ofList (List.replicate count character)

/--
The lines of a comment.  Blanks around the comment do not count; a line loses the carriage
returns at its end, and then the reverse solidi at its end.
-/
def commentLines (text : String) : List String :=
  ((Text.trimmed text.toList).splitOn '\n').map fun line =>
    String.ofList (Text.dropEndWhile (· == '\\') (Text.dropEndWhile (· == '\r') line))

end BusTables.Initializer
