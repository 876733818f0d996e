import BusTables.Proofs.Initializer.Lines

/-!
# Reading a listing

Generated text can be read back line by line, without knowledge of what was written.  A line is
told apart by its first character behind the indentation and by its last one: it is a line of a
comment, it opens or closes a block, or it is a value.  The items read are those written, except
that each line of a comment has become a comment of its own (`read_layout`).

The invariant of the reader is `advance_items`: the lines of items add the outline of the items to
the innermost open block and leave the blocks around it alone.
-/

namespace BusTables.Initializer

/-- What a line says. -/
inductive Line where
  | empty
  | comment (text : String)
  | opening (header : Option String)
  | closing
  | value (text : String)

namespace Line

/-- What a block is assigned to, by the line that opens the block. -/
def header? (text : List Char) : Option String :=
  if text = ['\x7b'] then none else some (String.ofList (text.take (text.length - 4)))

/-- The text without the comma at its end. -/
def dropComma (text : List Char) : List Char :=
  if text.getLast? = some ',' then text.dropLast else text

/-- What a line says that is not indented. -/
def ofUnindented : List Char → Line
  | [] => .empty
  | '/' :: '/' :: rest => .comment (String.ofList (rest.drop 1))
  | '\x7d' :: _ => .closing
  | text =>
      if text.getLast? = some '\x7b' then .opening (header? text)
      else .value (String.ofList (dropComma text))

/-- What a line says. -/
def ofChars (characters : List Char) : Line :=
  ofUnindented (characters.dropWhile (· == ' '))

end Line

/-- A block whose end is due; the items read so far are in reverse. -/
structure Unclosed where
  header : Option String
  reversed : List Item

namespace Unclosed

/-- The block with more items. -/
def extend (block : Unclosed) (items : List Item) : Unclosed :=
  { block with reversed := items.reverse ++ block.reversed }

/-- The items of the block. -/
def items (block : Unclosed) : List Item := block.reversed.reverse

@[simp] theorem extend_extend (block : Unclosed) (first later : List Item) :
    (block.extend first).extend later = block.extend (first ++ later) := by
  simp [extend]

@[simp] theorem extend_nil (block : Unclosed) : block.extend [] = block :=
  rfl

@[simp] theorem items_extend (block : Unclosed) (items : List Item) :
    (block.extend items).items = block.items ++ items := by
  simp [extend, Unclosed.items]

end Unclosed

/-- The open blocks, innermost first, after one more line. -/
def advance : List Unclosed → Line → Option (List Unclosed)
  | blocks, .empty => some blocks
  | block :: outer, .comment text => some (block.extend [.comment text] :: outer)
  | block :: outer, .value text => some (block.extend [.value text] :: outer)
  | blocks, .opening header => some (⟨header, []⟩ :: blocks)
  | block :: parent :: outer, .closing =>
      some (parent.extend [.block block.header block.items] :: outer)
  | _, _ => none

/-- The open blocks after lines. -/
def advanceAll (blocks : List Unclosed) (lines : List (List Char)) : Option (List Unclosed) :=
  lines.foldlM (fun blocks line => advance blocks (.ofChars line)) blocks

/-- The items in a listing, unless its braces do not match. -/
def readItems? (text : List Char) : Option (List Item) := do
  match ← advanceAll [⟨none, []⟩] (text.splitOn '\n') with
  | [file] => some file.items
  | _ => none

mutual

/-- An item with a comment for each line of a comment. -/
def Item.outline : Item → List Item
  | .value text => [.value text]
  | .comment text => (commentLines text).map .comment
  | .block header items => [.block header (Item.outlineAll items)]

/-- Items with a comment for each line of a comment. -/
def Item.outlineAll : List Item → List Item
  | [] => []
  | item :: later => item.outline ++ Item.outlineAll later

end

/-- The text starts a line and is taken neither for a comment nor for a closing brace. -/
def Leads (text : String) : Prop :=
  text.toList.head?.any (fun first => !first.isWhitespace && first != '/' && first != '\x7d') = true
  deriving Decidable

theorem Leads.first {text : String} (leads : Leads text) :
    ∃ first rest, text.toList = first :: rest ∧ first.isWhitespace = false ∧ first ≠ '/' ∧
      first ≠ '\x7d' := by
  unfold Leads at leads
  cases characters : text.toList with
  | nil => simp [characters] at leads
  | cons first rest => exact ⟨first, rest, rfl, by simpa [characters, and_assoc] using leads⟩

theorem Leads.append {text : String} (leads : Leads text) (rest : String) :
    Leads (text ++ rest) := by
  obtain ⟨first, others, starts, _⟩ := leads.first
  simpa [Leads, starts] using leads

theorem ne_blank {character : Char} (inked : character.isWhitespace = false) :
    character ≠ ' ' := by
  rintro rfl
  cases inked

mutual

/--
The lines of an item can be told apart.  Values stand inside braces, and the last one ends in
neither a comma nor a brace.
-/
inductive Item.Legible : Nat → Bool → Item → Prop where
  | value {depth : Nat} {isLast : Bool} {text : String} (nested : 0 < depth)
      (whole : '\n' ∉ text.toList) (leads : Leads text)
      (ends : isLast = true →
        text.toList.getLast? ≠ some ',' ∧ text.toList.getLast? ≠ some '\x7b') :
      Item.Legible depth isLast (.value text)
  | comment {depth : Nat} {isLast : Bool} {text : String} :
      Item.Legible depth isLast (.comment text)
  | block {depth : Nat} {isLast : Bool} {header : Option String} {items : List Item}
      (whole : ∀ text ∈ header, '\n' ∉ text.toList) (leads : ∀ text ∈ header, Leads text)
      (inner : Item.AllLegible (depth + 1) items) :
      Item.Legible depth isLast (.block header items)

/-- The lines of items can be told apart. -/
inductive Item.AllLegible : Nat → List Item → Prop where
  | nil {depth : Nat} : Item.AllLegible depth []
  | cons {depth : Nat} {item : Item} {later : List Item}
      (first : item.Legible depth later.isEmpty) (rest : Item.AllLegible depth later) :
      Item.AllLegible depth (item :: later)

end

namespace Line

/-- The indentation of a line says nothing. -/
theorem ofChars_lineAt (columns depth : Nat) {first : Char} (rest : List Char)
    (inked : first.isWhitespace = false) :
    ofChars (lineAt columns depth (first :: rest)) = ofUnindented (first :: rest) := by
  have skipped : (lineAt columns depth (first :: rest)).dropWhile (· == ' ') = first :: rest := by
    unfold lineAt
    rw [List.dropWhile_append_of_pos (by simp)]
    simp [ne_blank inked]
  rw [ofChars, skipped]

theorem ofUnindented_cons {first : Char} (rest : List Char) (comment : first ≠ '/')
    (brace : first ≠ '\x7d') :
    ofUnindented (first :: rest) =
      if (first :: rest).getLast? = some '\x7b' then .opening (header? (first :: rest))
      else .value (String.ofList (dropComma (first :: rest))) := by
  unfold ofUnindented
  split <;> simp_all

theorem ofChars_commentText (columns depth : Nat) (line : String) :
    ofChars (lineAt columns depth (commentText line)) = .comment line := by
  rw [commentText, List.cons_append, ofChars_lineAt _ _ _ (by decide)]
  simp [ofUnindented]

theorem ofChars_brace (columns depth : Nat) (rest : List Char) :
    ofChars (lineAt columns depth ('\x7d' :: rest)) = .closing := by
  rw [ofChars_lineAt _ _ _ (by decide), ofUnindented]

theorem ofChars_openingText (columns depth : Nat) {header : Option String}
    (leads : ∀ text ∈ header, Leads text) :
    ofChars (lineAt columns depth (openingText header)) = .opening header := by
  cases header with
  | none =>
      rw [openingText, Option.map_none, Option.getD_none, List.nil_append,
        ofChars_lineAt _ _ _ (by decide), ofUnindented_cons _ (by decide) (by decide)]
      simp [header?]
  | some text =>
      obtain ⟨first, rest, starts, inked, comment, brace⟩ := (leads text rfl).first
      have whole : openingText (some text) = first :: (rest ++ [' ', '=', ' ', '\x7b']) := by
        simp [openingText, starts]
      have assigned : header? (first :: (rest ++ [' ', '=', ' ', '\x7b'])) = some text := by
        simp [header?, ← starts]
      have ends : (first :: (rest ++ [' ', '=', ' ', '\x7b'])).getLast? = some '\x7b' := by
        rw [← List.cons_append, List.getLast?_append]
        rfl
      rw [whole, ofChars_lineAt _ _ _ inked, ofUnindented_cons _ comment brace, if_pos ends,
        assigned]

theorem ofChars_last (columns depth : Nat) {text : String} (leads : Leads text)
    (comma : text.toList.getLast? ≠ some ',') (brace : text.toList.getLast? ≠ some '\x7b') :
    ofChars (lineAt columns depth text.toList) = .value text := by
  obtain ⟨first, rest, starts, inked, mark, closing⟩ := leads.first
  rw [starts] at comma brace
  rw [starts, ofChars_lineAt _ _ _ inked, ofUnindented_cons _ mark closing, if_neg brace,
    dropComma, if_neg comma, ← starts, String.ofList_toList]

theorem ofChars_comma (columns depth : Nat) {text : String} (leads : Leads text) :
    ofChars (lineAt columns depth (text.toList ++ [','])) = .value text := by
  obtain ⟨first, rest, starts, inked, mark, closing⟩ := leads.first
  have ends : (first :: (rest ++ [','])).getLast? = some ',' := by
    rw [← List.cons_append, List.getLast?_append]
    rfl
  rw [starts, List.cons_append, ofChars_lineAt _ _ _ inked, ofUnindented_cons _ mark closing, ends,
    if_neg (by decide), dropComma, if_pos ends, ← List.cons_append, List.dropLast_concat, ← starts,
    String.ofList_toList]

end Line

@[simp] theorem advanceAll_nil (blocks : List Unclosed) : advanceAll blocks [] = some blocks :=
  rfl

theorem advanceAll_cons (blocks : List Unclosed) (line : List Char) (later : List (List Char)) :
    advanceAll blocks (line :: later) =
      (advance blocks (.ofChars line)).bind fun next => advanceAll next later :=
  rfl

theorem advanceAll_append (blocks : List Unclosed) (first later : List (List Char)) :
    advanceAll blocks (first ++ later) =
      (advanceAll blocks first).bind fun next => advanceAll next later := by
  simp [advanceAll, List.foldlM_append]

theorem advanceAll_comment (block : Unclosed) (outer : List Unclosed) (columns depth : Nat)
    (lines : List String) :
    advanceAll (block :: outer) (lines.map fun line =>
        lineAt columns depth (commentText line)) =
      some (block.extend (lines.map .comment) :: outer) := by
  induction lines generalizing block with
  | nil => rfl
  | cons line later ih =>
      rw [List.map_cons, advanceAll_cons, Line.ofChars_commentText]
      simp [advance, ih]

/-- A closing brace ends the innermost block, whatever separator follows it. -/
theorem advanceAll_brace (block parent : Unclosed) (outer : List Unclosed) (columns depth : Nat)
    (isLast : Bool) :
    advanceAll (block :: parent :: outer) (ended depth isLast (lineAt columns depth ['\x7d'])) =
      some (parent.extend [.block block.header block.items] :: outer) := by
  have closing (separator : List Char) :
      Line.ofChars (lineAt columns depth ['\x7d'] ++ separator) = .closing := by
    rw [lineAt, List.append_assoc]
    exact Line.ofChars_brace columns depth separator
  have bare : Line.ofChars (lineAt columns depth ['\x7d']) = .closing := by
    simpa using closing []
  have blank : Line.ofChars [] = .empty := rfl
  unfold ended
  split
  · simp [advanceAll_cons, closing, blank, advance]
  · split <;> simp [advanceAll_cons, closing, bare, advance]

theorem advanceAll_value (block : Unclosed) (outer : List Unclosed) (columns : Nat) {depth : Nat}
    {isLast : Bool} {text : String} (legible : (Item.value text).Legible depth isLast) :
    advanceAll (block :: outer) (ended depth isLast (lineAt columns depth text.toList)) =
      some (block.extend [.value text] :: outer) := by
  obtain ⟨nested, -, leads, ends⟩ := legible
  have inside : depth ≠ 0 := Nat.pos_iff_ne_zero.mp nested
  cases isLast with
  | true =>
      obtain ⟨comma, brace⟩ := ends rfl
      simp [ended, inside, advanceAll_cons, Line.ofChars_last columns depth leads comma brace,
        advance]
  | false =>
      have apart : lineAt columns depth text.toList ++ [','] =
          lineAt columns depth (text.toList ++ [',']) :=
        List.append_assoc ..
      simp [ended, inside, advanceAll_cons, apart, Line.ofChars_comma columns depth leads, advance]

mutual

/-- The lines of an item add its outline to the innermost open block. -/
theorem advance_item (block : Unclosed) (outer : List Unclosed) (columns depth : Nat)
    (isLast : Bool) (item : Item) (legible : item.Legible depth isLast) :
    advanceAll (block :: outer) (item.lines columns depth isLast) =
      some (block.extend item.outline :: outer) := by
  match item with
  | .value text => exact advanceAll_value block outer columns legible
  | .comment text => exact advanceAll_comment block outer columns depth (commentLines text)
  | .block header items =>
      -- The items are added to a new innermost block, which the closing brace adds to the old one.
      obtain ⟨⟩ | ⟨⟩ | ⟨-, leads, inner⟩ := legible
      have opening := Line.ofChars_openingText columns depth leads
      have inside := advance_items ⟨header, []⟩ (block :: outer) columns (depth + 1) items inner
      rw [Item.lines, advanceAll_cons, opening]
      simp only [advance, Option.bind_some, advanceAll_append, inside, advanceAll_brace]
      rw [Unclosed.items_extend, Item.outline]
      rfl

theorem advance_items (block : Unclosed) (outer : List Unclosed) (columns depth : Nat)
    (items : List Item) (legible : Item.AllLegible depth items) :
    advanceAll (block :: outer) (Item.allLines columns depth items) =
      some (block.extend (Item.outlineAll items) :: outer) := by
  match items with
  | [] => rfl
  | item :: later =>
      obtain ⟨⟩ | ⟨first, rest⟩ := legible
      rw [Item.allLines, advanceAll_append,
        advance_item block outer columns depth later.isEmpty item first, Option.bind_some,
        advance_items _ outer columns depth later rest, Unclosed.extend_extend, Item.outlineAll]

end

theorem whole_lineAt (columns depth : Nat) {text : List Char} (whole : '\n' ∉ text) :
    '\n' ∉ lineAt columns depth text := by
  intro member
  rcases List.mem_append.mp member with blank | inked
  · exact absurd (List.eq_of_mem_replicate blank) (by decide)
  · exact whole inked

theorem whole_ended (depth : Nat) (isLast : Bool) {line : List Char} (whole : '\n' ∉ line) :
    ∀ other ∈ ended depth isLast line, '\n' ∉ other := by
  unfold ended
  split
  · simp [whole]
  · split <;> simp [whole]

/-- The lines of a comment hold no line end, whatever the comment holds. -/
theorem whole_commentLines {text line : String} (member : line ∈ commentLines text) :
    '\n' ∉ line.toList := by
  obtain ⟨part, among, rfl⟩ := List.mem_map.mp member
  intro inside
  rw [String.toList_ofList] at inside
  exact Text.not_mem_of_mem_splitOn among
    (Text.mem_of_mem_dropEndWhile (Text.mem_of_mem_dropEndWhile inside))

mutual

theorem whole_lines (columns depth : Nat) (isLast : Bool) (item : Item)
    (legible : item.Legible depth isLast) :
    ∀ line ∈ item.lines columns depth isLast, '\n' ∉ line := by
  match item with
  | .value text =>
      obtain ⟨-, whole⟩ := legible
      exact whole_ended depth isLast (whole_lineAt columns depth whole)
  | .comment text =>
      intro line member
      obtain ⟨part, among, rfl⟩ := List.mem_map.mp member
      apply whole_lineAt
      simpa [commentText] using whole_commentLines among
  | .block header items =>
      obtain ⟨⟩ | ⟨⟩ | ⟨whole, -, inner⟩ := legible
      have opening : '\n' ∉ openingText header := by
        cases header with
        | none => decide
        | some text => simpa [openingText] using whole text rfl
      intro line member
      rcases List.mem_cons.mp member with rfl | later
      · exact whole_lineAt columns depth opening
      · rcases List.mem_append.mp later with inside | closing
        · exact whole_allLines columns (depth + 1) items inner line inside
        · exact whole_ended depth isLast (whole_lineAt columns depth (by decide)) line closing

theorem whole_allLines (columns depth : Nat) (items : List Item)
    (legible : Item.AllLegible depth items) :
    ∀ line ∈ Item.allLines columns depth items, '\n' ∉ line := by
  match items with
  | [] => exact fun line member => absurd member List.not_mem_nil
  | item :: later =>
      obtain ⟨⟩ | ⟨first, rest⟩ := legible
      intro line member
      rcases List.mem_append.mp member with here | there
      · exact whole_lines columns depth later.isEmpty item first line here
      · exact whole_allLines columns depth later rest line there

end

/-- What is read from a file is the outline of what was laid out in it. -/
theorem read_layout (columns : Nat) (items : List Item) (legible : Item.AllLegible 0 items) :
    readItems? (layoutFile columns items).toList = some (Item.outlineAll items) := by
  have whole : ∀ line ∈ [] :: Item.allLines columns 0 items, '\n' ∉ line := by
    intro line member
    rcases List.mem_cons.mp member with rfl | inside
    · exact List.not_mem_nil
    · exact whole_allLines columns 0 items legible line inside
  have blank : Line.ofChars [] = .empty := rfl
  rw [readItems?, toList_layoutFile, Text.splitOn_unlines whole, List.cons_append,
    advanceAll_cons, blank]
  simp only [advance, Option.bind_some, advanceAll_append,
    advance_items _ [] columns 0 items legible]
  simp [advanceAll_cons, blank, advance, Unclosed.items, Unclosed.extend]

end BusTables.Initializer
