import BusTables.Initializer.Item

/-!
# The layout of items

The layout says directly how items look.  Every item starts on a line of its own, indented by the
depth at which it stands.  Inside a block a comma follows each value and each block but the last
item; at file scope a semicolon and a blank line follow them.  Nothing follows a comment but the
end of its line.  A closing brace stands below the start of its block.
-/

namespace BusTables.Initializer

/-- The indentation of a line at a depth. -/
def indentation (columns depth : Nat) : String := repeated (columns * depth) ' '

/-- What follows an item at a depth; `isLast` tells that no item follows in the block. -/
def Item.ending (depth : Nat) (isLast : Bool) : Item → String
  | .comment _ => "\n"
  | _ => if depth = 0 then ";\n\n" else if isLast then "\n" else ",\n"

/-- A comment, line by line. -/
def layoutComment (columns depth : Nat) (text : String) : String :=
  String.intercalate "\n" ((commentLines text).map fun line =>
    indentation columns depth ++ "// " ++ line)

/-- The line that opens a block. -/
def layoutOpening (columns depth : Nat) (header : Option String) : String :=
  indentation columns depth ++ (header.map (· ++ " = ")).getD "" ++ "\x7b\n"

mutual

/-- An item at a depth, without what follows it. -/
def Item.layout (columns depth : Nat) : Item → String
  | .value text => indentation columns depth ++ text
  | .comment text => layoutComment columns depth text
  | .block header items =>
      layoutOpening columns depth header ++ Item.layoutAll columns (depth + 1) items ++
        indentation columns depth ++ "\x7d"

/-- Items at a depth, each with what follows it. -/
def Item.layoutAll (columns depth : Nat) : List Item → String
  | [] => ""
  | item :: later =>
      item.layout columns depth ++ item.ending depth later.isEmpty ++
        Item.layoutAll columns depth later

end

/-- Items at file scope, below a line end. -/
def layoutFile (columns : Nat) (items : List Item) : String :=
  "\n" ++ Item.layoutAll columns 0 items

end BusTables.Initializer
