import BusTables.Proofs.Initializer.Listing
import BusTables.Proofs.Text.Decimal

/-!
# The grammar of initializers

Between the braces of a declaration stands a list of values and groups.  The writer puts a
separator behind an item only when it knows that another one follows, and so the lines of items
form a list as long as no comment comes last (`listed_elements`).  Comments are no part of the
grammar: their lines are taken out first.
-/

namespace BusTables.Initializer

/-- The characters up to and after an item that do not count. -/
def Blank (text : List Char) : Prop := ∀ character ∈ text, character = ' ' ∨ character = '\n'

/-- Values and groups in braces, at least one, with one comma between each and the next. -/
inductive Listed : List Char → Prop where
  | value {first : Char} {rest : List Char} (inked : first.isWhitespace = false)
      (plain : ∀ character ∈ first :: rest, Text.isPlain character = true) :
      Listed (first :: rest)
  | group {inner : List Char} (items : Listed inner) : Listed ('\x7b' :: (inner ++ ['\x7d']))
  | blank {before items after : List Char} (above : Blank before) (inner : Listed items)
      (below : Blank after) : Listed (before ++ items ++ after)
  | both {first later : List Char} (item : Listed first) (rest : Listed later) :
      Listed (first ++ ',' :: later)

/-- The number of open braces behind one more character; a brace that is not open cannot be
closed, and no semicolon stands inside braces. -/
def braceStep (depth : Nat) (character : Char) : Option Nat :=
  if character = '\x7b' then some (depth + 1)
  else if character = '\x7d' then if depth = 0 then none else some (depth - 1)
  else if character = ';' then if depth = 0 then some 0 else none
  else some depth

/-- The number of open braces behind a text, unless a step fails. -/
def depthAfter (depth : Nat) (text : List Char) : Option Nat :=
  text.foldlM braceStep depth

/-- The line is a comment. -/
def isCommentLine (line : List Char) : Bool :=
  ['/', '/'].isPrefixOf (line.dropWhile Char.isWhitespace)

/-- The text without the lines that are comments. -/
def withoutComments (text : List Char) : List Char :=
  ['\n'].intercalate ((text.splitOn '\n').filter (!isCommentLine ·))

theorem depthAfter_append (depth : Nat) (first later : List Char) :
    depthAfter depth (first ++ later) =
      (depthAfter depth first).bind fun next => depthAfter next later :=
  List.foldlM_append

theorem depthAfter_cons (depth : Nat) (first : Char) (later : List Char) :
    depthAfter depth (first :: later) =
      (braceStep depth first).bind fun next => depthAfter next later :=
  List.foldlM_cons

theorem depthAfter_of_forall (depth : Nat) {text : List Char}
    (other : ∀ character ∈ text, braceStep depth character = some depth) :
    depthAfter depth text = some depth := by
  induction text with
  | nil => rfl
  | cons first rest ih =>
      rw [depthAfter_cons, other first List.mem_cons_self, Option.bind_some]
      exact ih fun character member => other character (List.mem_cons_of_mem first member)

theorem depthAfter_plain (depth : Nat) {text : List Char}
    (plain : ∀ character ∈ text, Text.isPlain character = true) :
    depthAfter depth text = some depth := by
  apply depthAfter_of_forall
  intro character member
  have apart := Text.ne_of_class (plain character member)
  simp [braceStep, apart '\x7b' (by decide), apart '\x7d' (by decide), apart ';' (by decide)]

theorem depthAfter_blank (depth : Nat) {text : List Char} (blank : Blank text) :
    depthAfter depth text = some depth := by
  apply depthAfter_of_forall
  intro character member
  rcases blank character member with rfl | rfl <;> rfl

/-- A list closes the braces that it opens, and holds no semicolon. -/
theorem Listed.depthAfter {text : List Char} (listed : Listed text) (depth : Nat) :
    depthAfter depth text = some depth := by
  induction listed generalizing depth with
  | value _ plain => exact depthAfter_plain depth plain
  | group _ ih =>
      rw [depthAfter_cons]
      change Option.bind (some (depth + 1)) _ = _
      rw [Option.bind_some, depthAfter_append, ih (depth + 1), Option.bind_some]
      rfl
  | blank above _ below ih =>
      rw [depthAfter_append, depthAfter_append, depthAfter_blank depth above, Option.bind_some,
        ih depth, Option.bind_some, depthAfter_blank depth below]
  | both _ _ first later =>
      rw [depthAfter_append, first depth, Option.bind_some, depthAfter_cons]
      exact later depth

theorem Listed.append_blank {items after : List Char} (inner : Listed items) (blank : Blank after) :
    Listed (items ++ after) :=
  .blank (fun _ member => absurd member List.not_mem_nil) inner blank

theorem Listed.blank_append {before items : List Char} (blank : Blank before)
    (inner : Listed items) : Listed (before ++ items) := by
  simpa using Listed.blank blank inner fun _ member => absurd member List.not_mem_nil

theorem listed_numbers {numbers : List Nat} (nonempty : numbers ≠ []) :
    Listed (Text.listed numbers).toList := by
  have single (number : Nat) : Listed (toString number).toList := by
    obtain ⟨first, rest, digits⟩ :=
      List.exists_cons_of_ne_nil (Text.toList_toString_ne_nil number)
    have plain := Text.plain_nat number
    have digit := Text.isDigit_of_mem_toString (digits ▸ List.mem_cons_self)
    rw [Text.Plain, digits] at plain
    rw [digits]
    exact .value (Text.isWhitespace_of_isDigit digit) plain
  induction numbers with
  | nil => exact absurd rfl nonempty
  | cons first later ih =>
      cases later with
      | nil =>
          rw [Text.listed, List.map_singleton, String.intercalate_singleton]
          exact single first
      | cons next rest =>
          have gap : Blank [' '] := by simp [Blank]
          have others := Listed.blank_append gap (ih (List.cons_ne_nil next rest))
          have text : (Text.listed (first :: next :: rest)).toList =
              (toString first).toList ++ ',' :: ([' '] ++ (Text.listed (next :: rest)).toList) := by
            simp [Text.listed, String.intercalate_cons_cons]
          rw [text]
          exact .both (single first) others

theorem withoutComments_unlines {lines : List (List Char)} (whole : ∀ line ∈ lines, '\n' ∉ line) :
    withoutComments (Text.unlines lines) = Text.unlines (lines.filter (!isCommentLine ·)) := by
  have joined (lines : List (List Char)) :
      ['\n'].intercalate (lines ++ [[]]) = Text.unlines lines := by
    induction lines with
    | nil => rfl
    | cons line later ih =>
        rw [List.cons_append, List.intercalate_cons_of_ne_nil (by simp), ih, Text.unlines_cons,
          List.append_assoc, List.singleton_append]
  rw [withoutComments, Text.splitOn_unlines whole, List.filter_append]
  exact joined _

mutual

/-- The item is an element of a list: its lines are neither missing nor taken for a comment. -/
inductive Item.Element : Item → Prop where
  | value {text : String} (leads : Leads text) (listed : Listed text.toList) :
      Item.Element (.value text)
  | block {items : List Item} (inner : Item.Elements items) : Item.Element (.block none items)

/-- The items are a list, with comments anywhere but at its end. -/
inductive Item.Elements : List Item → Prop where
  | last {item : Item} (element : item.Element) : Item.Elements [item]
  | cons {item : Item} {later : List Item} (element : item.Element)
      (rest : Item.Elements later) : Item.Elements (item :: later)
  | comment {text : String} {later : List Item} (rest : Item.Elements later) :
      Item.Elements (.comment text :: later)

end

theorem isWhitespace_of_indented {width : Nat} {character : Char}
    (member : character ∈ List.replicate width ' ') : character.isWhitespace = true := by
  rw [List.eq_of_mem_replicate member]
  decide

theorem isCommentLine_commentText (columns depth : Nat) (line : String) :
    isCommentLine (lineAt columns depth (commentText line)) = true := by
  unfold isCommentLine lineAt
  rw [List.dropWhile_append_of_pos fun _ member => isWhitespace_of_indented member]
  simp +decide [commentText]

theorem isCommentLine_lineAt (columns depth : Nat) {first : Char} (rest : List Char)
    (inked : first.isWhitespace = false) (other : first ≠ '/') :
    isCommentLine (lineAt columns depth (first :: rest)) = false := by
  have differs : ('/' == first) = false := beq_eq_false_iff_ne.mpr other.symm
  unfold isCommentLine lineAt
  rw [List.dropWhile_append_of_pos fun _ member => isWhitespace_of_indented member]
  simp [inked, List.isPrefixOf, differs]

/-- The lines of a text that are no comments. -/
def inkedLines (lines : List (List Char)) : List Char :=
  Text.unlines (lines.filter (!isCommentLine ·))

@[simp] theorem inkedLines_append (first later : List (List Char)) :
    inkedLines (first ++ later) = inkedLines first ++ inkedLines later := by
  simp [inkedLines]

theorem inkedLines_cons {line : List Char} (inked : isCommentLine line = false)
    (later : List (List Char)) :
    inkedLines (line :: later) = line ++ '\n' :: inkedLines later := by
  simp [inkedLines, inked]

theorem inkedLines_comment (columns depth : Nat) (isLast : Bool) (text : String) :
    inkedLines ((Item.comment text).lines columns depth isLast) = [] := by
  have none : ((Item.comment text).lines columns depth isLast).filter (!isCommentLine ·) = [] := by
    rw [List.filter_eq_nil_iff]
    intro line member
    obtain ⟨part, -, rfl⟩ := List.mem_map.mp member
    simp [isCommentLine_commentText]
  rw [inkedLines, none]
  rfl

theorem inkedLines_ended (columns depth level : Nat) (isLast : Bool) (first : Char)
    (rest : List Char) (inked : first.isWhitespace = false) (other : first ≠ '/') :
    inkedLines (ended (depth + 1) isLast (lineAt columns level (first :: rest))) =
      lineAt columns level (first :: rest) ++ (if isLast then ['\n'] else [',', '\n']) := by
  have apart : lineAt columns level (first :: rest) ++ [','] =
      lineAt columns level (first :: (rest ++ [','])) :=
    List.append_assoc ..
  cases isLast with
  | true =>
      have bare := isCommentLine_lineAt columns level rest inked other
      simp [ended, inkedLines, bare]
  | false =>
      have bare := isCommentLine_lineAt columns level (rest ++ [',']) inked other
      rw [← apart] at bare
      simp [ended, inkedLines, bare]

theorem blank_replicate (count : Nat) : Blank (List.replicate count ' ') := fun _ member =>
  .inl (List.eq_of_mem_replicate member)

theorem lineEnd_blank : Blank ['\n'] := by
  simp [Blank]

mutual

/-- The lines of an element are one, and what separates it from the next. -/
theorem listed_element (columns depth : Nat) (isLast : Bool) {item : Item}
    (element : item.Element) :
    ∃ content, Listed content ∧ inkedLines (item.lines columns (depth + 1) isLast) =
      content ++ (if isLast then ['\n'] else [',', '\n']) := by
  match item, element with
  | .value text, .value leads listed =>
      obtain ⟨first, rest, starts, inked, mark, -⟩ := leads.first
      refine ⟨lineAt columns (depth + 1) text.toList,
        Listed.blank_append (blank_replicate _) listed, ?_⟩
      rw [Item.lines, starts]
      exact inkedLines_ended columns depth (depth + 1) isLast first rest inked mark
  | .block none items, .block inner =>
      have content := listed_elements columns (depth + 1) inner
      let body := '\n' :: (inkedLines (Item.allLines columns (depth + 1 + 1) items) ++
        List.replicate (columns * (depth + 1)) ' ')
      have listed : Listed ('\x7b' :: (body ++ ['\x7d'])) :=
        .group (Listed.blank_append lineEnd_blank (content.append_blank (blank_replicate _)))
      have opening : isCommentLine (lineAt columns (depth + 1) (openingText none)) = false :=
        isCommentLine_lineAt columns (depth + 1) [] (by decide) (by decide)
      have closing := inkedLines_ended columns depth (depth + 1) isLast '\x7d' [] (by decide)
        (by decide)
      refine ⟨lineAt columns (depth + 1) ('\x7b' :: (body ++ ['\x7d'])),
        Listed.blank_append (blank_replicate _) listed, ?_⟩
      rw [Item.lines, inkedLines_cons opening, inkedLines_append, closing]
      simp [body, lineAt, openingText]

theorem listed_elements (columns depth : Nat) {items : List Item} (elements : Item.Elements items) :
    Listed (inkedLines (Item.allLines columns (depth + 1) items)) := by
  match items, elements with
  | [_], .last element =>
      obtain ⟨content, listed, lines⟩ := listed_element columns depth true element
      rw [Item.allLines, Item.allLines, List.append_nil, List.isEmpty_nil, lines]
      exact listed.append_blank lineEnd_blank
  | _ :: _, .comment rest =>
      -- A comment never comes last, so no separator is left behind when its lines are gone.
      rw [Item.allLines, inkedLines_append, inkedLines_comment, List.nil_append]
      exact listed_elements columns depth rest
  | _ :: later, .cons element rest =>
      obtain ⟨content, listed, lines⟩ := listed_element columns depth false element
      have others := listed_elements columns depth rest
      have more : later.isEmpty = false := by cases rest <;> rfl
      rw [Item.allLines, more, inkedLines_append, lines, if_neg (by decide)]
      have split : content ++ [',', '\n'] ++ inkedLines (Item.allLines columns (depth + 1) later) =
          content ++ ',' :: (['\n'] ++ inkedLines (Item.allLines columns (depth + 1) later)) := by
        simp
      rw [split]
      exact .both listed (Listed.blank_append lineEnd_blank others)

end

end BusTables.Initializer
