/-!
# Bytes of texts

The bytes of a text are those of its encoding in UTF-8.
-/

namespace BusTables.Text

/-- The bytes of some characters. -/
def bytesOf (characters : List Char) : List UInt8 :=
  characters.flatMap String.utf8EncodeChar

/-- The bytes of a text. -/
def bytes (text : String) : List UInt8 := bytesOf text.toList

@[simp] theorem bytesOf_nil : bytesOf [] = [] :=
  rfl

@[simp] theorem bytesOf_append (first later : List Char) :
    bytesOf (first ++ later) = bytesOf first ++ bytesOf later := by
  simp [bytesOf]

@[simp] theorem bytes_append (first later : String) :
    bytes (first ++ later) = bytes first ++ bytes later := by
  simp [bytes]

end BusTables.Text
