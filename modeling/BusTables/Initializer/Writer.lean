import BusTables.Failure
import BusTables.Initializer.Item

/-!
# Writing initializers lazily

A writer knows how many braces are open and whether the last thing written was a value that still
lacks its separator.  What separates it depends on what comes next, so the separator is written
with the next operation: a comma inside braces, a semicolon and a blank line at file scope.

An operation yields pieces of text, each marked with the part that it plays.  Closing more braces
than are open is refused and leaves the writer as it is.
-/

namespace BusTables.Initializer

/-- A piece of generated text. -/
inductive Piece where
  /-- The separator of two items inside braces. -/
  | comma
  /-- The end of a declaration. -/
  | semicolon
  | lineEnd
  | indent (width : Nat)
  /-- A line of code. -/
  | line (text : String)
  /-- What a block is assigned to. -/
  | header (text : String)
  | openBraces (levels : Nat)
  | closeBraces (levels : Nat)
  /-- A line of a comment. -/
  | comment (text : String)
  /-- A line for the preprocessor. -/
  | directive (text : String)
  deriving DecidableEq, Repr

/-- The text of a piece. -/
def Piece.text : Piece → String
  | .comma => ","
  | .semicolon => ";"
  | .lineEnd => "\n"
  | .indent width => repeated width ' '
  | .line text => text
  | .header text => text ++ " = "
  | .openBraces levels => repeated levels '\x7b'
  | .closeBraces levels => repeated levels '\x7d'
  | .comment text => "// " ++ text
  | .directive text => "#" ++ text

/-- The text of consecutive pieces. -/
def Piece.joined (pieces : List Piece) : String :=
  String.join (pieces.map Piece.text)

@[simp] theorem Piece.joined_nil : Piece.joined [] = "" :=
  rfl

@[simp] theorem Piece.joined_append (first later : List Piece) :
    Piece.joined (first ++ later) = Piece.joined first ++ Piece.joined later := by
  simp [Piece.joined]

/-- What a writer can be asked to write. -/
inductive Operation where
  | newline
  | directive (text : String)
  | line (text : String)
  | comment (text : String)
  | openBlock (header : Option String) (levels : Nat)
  | closeBlock (levels : Nat)
  deriving DecidableEq, Repr

/-- The state of a writer. -/
structure Writer where
  /-- The number of columns by which each open brace indents. -/
  columns : Nat
  /-- The number of braces that are open. -/
  depth : Nat
  /-- The last thing written is a value without its separator. -/
  pending : Bool
  deriving DecidableEq, Repr

namespace Writer

/-- A writer that has written nothing. -/
def fresh (columns : Nat) : Writer := ⟨columns, 0, false⟩

/-- The writer after a value, or after something that needs no separator. -/
def settle (writer : Writer) (pending : Bool) : Writer := { writer with pending }

/-- The end of the current line, with the separator that is due. -/
def lineBreak (writer : Writer) : List Piece :=
  if writer.pending then
    if 0 < writer.depth then [.comma, .lineEnd] else [.semicolon, .lineEnd, .lineEnd]
  else [.lineEnd]

/-- The indentation of a line. -/
def indentation (writer : Writer) : Piece := .indent (writer.columns * writer.depth)

/-- The lines of a comment, each on a line of its own. -/
def writeComment (writer : Writer) : List String → List Piece × Writer
  | [] => ([], writer)
  | line :: later =>
      let (pieces, last) := (writer.settle false).writeComment later
      (writer.lineBreak ++ [writer.indentation, .comment line] ++ pieces, last)

/-- What an operation writes, and the writer after it. -/
def perform (writer : Writer) : Operation → Except DeviceFault (List Piece × Writer)
  | .newline => .ok (writer.lineBreak, writer.settle false)
  | .directive text =>
      .ok ((if writer.pending then writer.lineBreak else []) ++ [.directive text, .lineEnd],
        writer.settle false)
  | .line text =>
      .ok (writer.lineBreak ++ [writer.indentation, .line text], writer.settle (!text.isEmpty))
  | .comment text => .ok (writer.writeComment (commentLines text))
  | .openBlock header levels =>
      .ok (writer.lineBreak ++ [writer.indentation] ++ (header.map Piece.header).toList ++
          [.openBraces levels],
        { writer with depth := writer.depth + levels, pending := false })
  | .closeBlock levels =>
      if levels ≤ writer.depth then
        let outer := { writer with depth := writer.depth - levels, pending := true }
        .ok ([.lineEnd, outer.indentation, .closeBraces levels], outer)
      else .error .unopenedBrace

/-- What an operation writes, and the writer after it; a refused operation does nothing. -/
def attempt (writer : Writer) (operation : Operation) : List Piece × Writer :=
  match writer.perform operation with
  | .ok result => result
  | .error _ => ([], writer)

/-- The operations in turn, without those that are refused. -/
def run (writer : Writer) : List Operation → List Piece × Writer
  | [] => ([], writer)
  | operation :: later =>
      let (pieces, next) := writer.attempt operation
      let (more, last) := next.run later
      (pieces ++ more, last)

@[simp] theorem run_nil (writer : Writer) : writer.run [] = ([], writer) :=
  rfl

theorem run_cons (writer : Writer) (operation : Operation) (later : List Operation) :
    writer.run (operation :: later) =
      ((writer.attempt operation).1 ++ ((writer.attempt operation).2.run later).1,
        ((writer.attempt operation).2.run later).2) :=
  rfl

/-- Operations in two parts are run one part after the other. -/
theorem run_append (writer : Writer) (first later : List Operation) :
    writer.run (first ++ later) =
      ((writer.run first).1 ++ ((writer.run first).2.run later).1,
        ((writer.run first).2.run later).2) := by
  induction first generalizing writer with
  | nil => simp
  | cons operation rest ih => simp [run_cons, ih, List.append_assoc]

end Writer

mutual

/-- The operations that write an item. -/
def Item.operations : Item → List Operation
  | .value text => [.line text]
  | .comment text => [.comment text]
  | .block header items => .openBlock header 1 :: (Item.allOperations items ++ [.closeBlock 1])

/-- The operations that write items one after the other. -/
def Item.allOperations : List Item → List Operation
  | [] => []
  | item :: later => item.operations ++ Item.allOperations later

end

end BusTables.Initializer
