import BusTables.Proofs.Growth
import BusTables.Proofs.Initializer.Layout

/-!
# The discipline of separators

A separator is written one operation late, and the operations may come in any order: some of them
settle what is due, a closing brace overwrites it, and a refused operation does nothing.  In
whatever order, a separator stands directly behind a value, there is exactly one before the next
item, and it is a comma inside braces and a semicolon at file scope (`run_disciplined`).

Lines, braces and separators are written one by one, each as what stands before it allows
(`Follows`).  The invariant is `Tracked`: the depth of the writer and the separator that is due
can be told from what has been written.
-/

namespace BusTables.Initializer

namespace Piece

/-- A comma or a semicolon that the writer adds. -/
def isSeparator : Piece → Bool
  | .comma => true
  | .semicolon => true
  | _ => false

/-- What a separator is due behind: a line that is not empty, or closing braces. -/
def isValue : Piece → Bool
  | .line text => !text.isEmpty
  | .closeBraces _ => true
  | _ => false

/-- What starts an item: a line that is not empty, or opening braces. -/
def startsItem : Piece → Bool
  | .line text => !text.isEmpty
  | .openBraces _ => true
  | _ => false

/-- What is left when blanks, comments, lines for the preprocessor and headers are disregarded. -/
def counts (piece : Piece) : Bool :=
  piece.isSeparator || piece.isValue || piece.startsItem

/-- The number of braces that a piece opens, less those that it closes. -/
def rise : Piece → Int
  | .openBraces levels => levels
  | .closeBraces levels => -levels
  | _ => 0

/-- The pieces that count. -/
def counted (pieces : List Piece) : List Piece := pieces.filter counts

/-- The number of braces that are open behind pieces. -/
def depthBehind : List Piece → Int
  | [] => 0
  | piece :: later => piece.rise + depthBehind later

/-- The last piece is a value. -/
def endsInValue (pieces : List Piece) : Bool := pieces.getLast?.any isValue

/-- The separator of values at a depth. -/
def separatorAt (depth : Int) : Piece := if 0 < depth then .comma else .semicolon

@[simp] theorem counted_append (first later : List Piece) :
    counted (first ++ later) = counted first ++ counted later :=
  List.filter_append first later

@[simp] theorem depthBehind_append (first later : List Piece) :
    depthBehind (first ++ later) = depthBehind first + depthBehind later := by
  induction first with
  | nil => exact (Int.zero_add _).symm
  | cons piece rest ih => rw [List.cons_append, depthBehind, depthBehind, ih, Int.add_assoc]

@[simp] theorem depthBehind_singleton (piece : Piece) : depthBehind [piece] = piece.rise :=
  Int.add_zero _

@[simp] theorem endsInValue_append_singleton (pieces : List Piece) (last : Piece) :
    endsInValue (pieces ++ [last]) = last.isValue := by
  simp [endsInValue]

theorem exists_of_endsInValue {pieces : List Piece} (ends : endsInValue pieces = true) :
    ∃ earlier value, pieces = earlier ++ [value] ∧ value.isValue = true := by
  rcases List.eq_nil_or_concat pieces with rfl | ⟨earlier, value, rfl⟩
  · cases ends
  · rw [List.concat_eq_append, endsInValue_append_singleton] at ends
    exact ⟨earlier, value, List.concat_eq_append, ends⟩

@[simp] theorem isSeparator_separatorAt (depth : Int) :
    (separatorAt depth).isSeparator = true := by
  unfold separatorAt
  split <;> rfl

@[simp] theorem rise_separatorAt (depth : Int) : (separatorAt depth).rise = 0 := by
  unfold separatorAt
  split <;> rfl

theorem separatorAt_eq_comma_iff (depth : Int) : separatorAt depth = .comma ↔ 0 < depth := by
  by_cases nested : 0 < depth
  · simp [separatorAt, nested]
  · simp [separatorAt, nested]

theorem separatorAt_eq_semicolon_iff (depth : Int) :
    separatorAt depth = .semicolon ↔ depth ≤ 0 := by
  by_cases nested : 0 < depth
  · simp [separatorAt, nested]
  · simp [separatorAt, nested, Int.not_lt.mp nested]

theorem isValue_of_isSeparator {piece : Piece} (separator : piece.isSeparator = true) :
    piece.isValue = false := by
  cases piece <;> first | rfl | cases separator

theorem startsItem_of_isSeparator {piece : Piece} (separator : piece.isSeparator = true) :
    piece.startsItem = false := by
  cases piece <;> first | rfl | cases separator

theorem rise_of_startsItem {piece : Piece} (starts : piece.startsItem = true) :
    0 ≤ piece.rise := by
  cases piece with
  | line => exact Int.le_refl 0
  | openBraces levels => exact Int.natCast_nonneg levels
  | _ => cases starts

end Piece

open Piece

/-- What may be written next. -/
inductive Follows (before : List Piece) : Piece → Prop where
  | separator (due : endsInValue before = true) :
      Follows before (separatorAt (depthBehind before))
  | item {piece : Piece} (settled : endsInValue before = false)
      (starts : piece.startsItem = true) : Follows before piece
  | closing {levels : Nat} (some : 0 < levels) (opened : (levels : Int) ≤ depthBehind before) :
      Follows before (.closeBraces levels)

/-- Pieces that are written one by one, each as those before it allow. -/
abbrev Written : List Piece → Prop := Grown Follows

/-- The pieces that count keep to the rules for separators. -/
structure Disciplined (pieces : List Piece) : Prop where
  /-- A separator stands directly behind a value. -/
  behind : ∀ before separator after, pieces = before ++ separator :: after →
    separator.isSeparator = true →
      ∃ earlier value, before = earlier ++ [value] ∧ value.isValue = true
  /-- It is a comma inside braces and a semicolon outside of all braces. -/
  kind : ∀ before separator after, pieces = before ++ separator :: after →
    separator.isSeparator = true →
      (separator = .comma ↔ 0 < depthBehind before) ∧
        (separator = .semicolon ↔ depthBehind before = 0)
  /-- Between a value and the next item there is exactly one separator. -/
  apart : ∀ before value gap item after, pieces = before ++ value :: (gap ++ item :: after) →
    value.isValue = true → (∀ piece ∈ gap, piece.isSeparator = true) →
      item.startsItem = true → ∃ separator, gap = [separator]
  /-- Between a value and closing braces there is at most a comma. -/
  closing : ∀ before value gap levels after,
    pieces = before ++ value :: (gap ++ .closeBraces levels :: after) →
      value.isValue = true → (∀ piece ∈ gap, piece.isSeparator = true) →
        gap = [] ∨ gap = [.comma]

namespace Written

/-- No brace is closed that is not open. -/
theorem depthBehind_nonneg {pieces : List Piece} (written : Written pieces) :
    0 ≤ depthBehind pieces := by
  induction written with
  | nil => exact Int.le_refl 0
  | snoc earlier next ih =>
      rw [depthBehind_append, depthBehind_singleton]
      cases next with
      | separator due => rw [rise_separatorAt]; omega
      | item settled starts =>
          have rises := rise_of_startsItem starts
          omega
      | closing some opened => simp only [rise]; omega

/-- A separator follows a value, and the depth decides which one. -/
theorem of_separator {before : List Piece} {piece : Piece} (follows : Follows before piece)
    (separator : piece.isSeparator = true) :
    endsInValue before = true ∧ piece = separatorAt (depthBehind before) := by
  cases follows with
  | separator due => exact ⟨due, rfl⟩
  | item settled starts =>
      rw [startsItem_of_isSeparator separator] at starts
      cases starts
  | closing => cases separator

theorem of_item {before : List Piece} {piece : Piece} (follows : Follows before piece)
    (starts : piece.startsItem = true) : endsInValue before = false := by
  cases follows with
  | separator due =>
      rw [startsItem_of_isSeparator (isSeparator_separatorAt _)] at starts
      cases starts
  | item settled => exact settled
  | closing => cases starts

theorem of_closing {before : List Piece} {levels : Nat}
    (follows : Follows before (.closeBraces levels)) : 0 < depthBehind before := by
  generalize same : Piece.closeBraces levels = piece at follows
  cases follows with
  | separator due =>
      have separator := isSeparator_separatorAt (depthBehind before)
      rw [← same] at separator
      cases separator
  | item settled starts =>
      rw [← same] at starts
      cases starts
  | closing some opened => omega

/-- Separators behind a value are at most one, and it is the one that the depth asks for. -/
theorem gap_cases {before gap after : List Piece} {value : Piece}
    (written : Written (before ++ value :: (gap ++ after)))
    (separators : ∀ piece ∈ gap, piece.isSeparator = true) :
    gap = [] ∨ gap = [separatorAt (depthBehind (before ++ [value]))] := by
  rcases gap with _ | ⟨first, _ | ⟨second, rest⟩⟩
  · exact .inl rfl
  · have split : before ++ value :: ([first] ++ after) = (before ++ [value]) ++ first :: after := by
      simp
    obtain ⟨-, follows⟩ := written.of_split split
    have alone := (of_separator follows (separators first List.mem_cons_self)).2
    exact .inr (by rw [alone])
  · -- A second separator would stand behind a separator, which is no value.
    have split : before ++ value :: (first :: second :: rest ++ after) =
        (before ++ [value] ++ [first]) ++ second :: (rest ++ after) := by
      simp
    obtain ⟨-, follows⟩ := written.of_split split
    have behind := (of_separator follows (separators second (by simp))).1
    rw [endsInValue_append_singleton,
      isValue_of_isSeparator (separators first List.mem_cons_self)] at behind
    cases behind

/-- What is written as the pieces before allow keeps to the rules for separators. -/
theorem disciplined {pieces : List Piece} (written : Written pieces) : Disciplined pieces := by
  constructor
  · intro before separator after split isSeparator
    obtain ⟨-, follows⟩ := written.of_split split
    exact exists_of_endsInValue (of_separator follows isSeparator).1
  · intro before separator after split isSeparator
    obtain ⟨earlier, follows⟩ := written.of_split split
    have depth := depthBehind_nonneg earlier
    rw [(of_separator follows isSeparator).2, separatorAt_eq_comma_iff,
      separatorAt_eq_semicolon_iff]
    constructor
    · rfl
    · omega
  · intro before value gap item after split isValue separators starts
    rw [split] at written
    rcases written.gap_cases separators with rfl | alone
    · have split : before ++ value :: ([] ++ item :: after) =
          (before ++ [value]) ++ item :: after := by
        simp
      obtain ⟨-, follows⟩ := written.of_split split
      have settled := of_item follows starts
      rw [endsInValue_append_singleton, isValue] at settled
      cases settled
    · exact ⟨_, alone⟩
  · intro before value gap levels after split isValue separators
    rw [split] at written
    rcases written.gap_cases separators with none | alone
    · exact .inl none
    · have split : before ++ value :: (gap ++ .closeBraces levels :: after) =
          (before ++ [value] ++ gap) ++ .closeBraces levels :: after := by
        simp
      obtain ⟨-, follows⟩ := written.of_split split
      have inside := of_closing follows
      rw [depthBehind_append, alone, depthBehind_singleton, rise_separatorAt] at inside
      rw [alone, separatorAt, if_pos (by omega)]
      exact .inr rfl

end Written

/-- Braces are opened and closed in groups, and no group is empty. -/
def Operation.Grouped : Operation → Prop
  | .openBlock _ levels => 0 < levels
  | .closeBlock levels => 0 < levels
  | _ => True

namespace Writer

/-- A writer knows of what has been written how deep it is and whether a separator is due. -/
structure Tracked (pieces : List Piece) (writer : Writer) : Prop where
  written : Written pieces
  depth : depthBehind pieces = writer.depth
  pending : writer.pending = endsInValue pieces

theorem tracked_fresh (columns : Nat) : Tracked [] (fresh columns) :=
  ⟨.nil, rfl, rfl⟩

variable {pieces : List Piece} {writer : Writer}

/-- One more piece is written, and the writer changes as the piece says. -/
theorem Tracked.snoc (tracked : Tracked pieces writer) {piece : Piece}
    (follows : Follows pieces piece) {next : Writer}
    (depth : (next.depth : Int) = writer.depth + piece.rise)
    (pending : next.pending = piece.isValue) : Tracked (pieces ++ [piece]) next where
  written := tracked.written.snoc follows
  depth := by rw [depthBehind_append, depthBehind_singleton, tracked.depth, depth]
  pending := by rw [endsInValue_append_singleton, pending]

theorem counted_lineBreak_of_settled (settled : writer.pending = false) :
    counted writer.lineBreak = [] := by
  rw [lineBreak, settled]
  rfl

theorem counted_lineBreak_of_pending (due : writer.pending = true) :
    counted writer.lineBreak = [separatorAt writer.depth] := by
  rw [lineBreak, if_pos due, separatorAt]
  by_cases nested : 0 < writer.depth
  · rw [if_pos nested, if_pos (Int.natCast_pos.mpr nested)]
    rfl
  · rw [if_neg nested, if_neg (mt Int.natCast_pos.mp nested)]
    rfl

/-- The line break writes the separator that is due. -/
theorem Tracked.settle (tracked : Tracked pieces writer) :
    Tracked (pieces ++ counted writer.lineBreak) (writer.settle false) := by
  cases due : writer.pending with
  | false =>
      rw [counted_lineBreak_of_settled due, List.append_nil]
      exact ⟨tracked.written, tracked.depth, due.symm.trans tracked.pending⟩
  | true =>
      rw [counted_lineBreak_of_pending due, ← tracked.depth]
      have ends : endsInValue pieces = true := tracked.pending.symm.trans due
      refine tracked.snoc (.separator ends) ?_ ?_
      · rw [rise_separatorAt, Int.add_zero]
        rfl
      · exact (isValue_of_isSeparator (isSeparator_separatorAt _)).symm

/-- An item starts where no separator is due. -/
theorem Tracked.item (tracked : Tracked pieces (writer.settle false)) {piece : Piece}
    (starts : piece.startsItem = true) {next : Writer}
    (depth : (next.depth : Int) = writer.depth + piece.rise)
    (pending : next.pending = piece.isValue) : Tracked (pieces ++ [piece]) next :=
  tracked.snoc (.item tracked.pending.symm starts) depth pending

theorem counted_directive (writer : Writer) (text : String) :
    counted ((if writer.pending then writer.lineBreak else []) ++ [.directive text, .lineEnd]) =
      counted writer.lineBreak := by
  have plain : counted [.directive text, .lineEnd] = [] := rfl
  rw [counted_append, plain, List.append_nil]
  cases due : writer.pending with
  | false => exact (counted_lineBreak_of_settled due).symm
  | true => rfl

theorem counted_openBlock (writer : Writer) (header : Option String) (levels : Nat) :
    counted (writer.attempt (.openBlock header levels)).1 =
      counted writer.lineBreak ++ [.openBraces levels] := by
  have blank : counted [writer.indentation] = [] := rfl
  have named : counted (header.map Piece.header).toList = [] := by cases header <;> rfl
  have braces : counted [.openBraces levels] = [.openBraces levels] := rfl
  change counted (writer.lineBreak ++ [writer.indentation] ++ (header.map Piece.header).toList ++
    [.openBraces levels]) = _
  rw [counted_append, counted_append, counted_append, blank, named, braces, List.append_nil,
    List.append_nil]

theorem counted_writeComment (writer : Writer) (line : String) (later : List String) :
    counted (writer.writeComment (line :: later)).1 = counted writer.lineBreak := by
  have comment (writer : Writer) (line : String) :
      counted [writer.indentation, .comment line] = [] :=
    rfl
  induction later generalizing writer line with
  | nil => simp [writeComment, comment]
  | cons next rest ih =>
      have behind : counted (writer.settle false).lineBreak = [] := rfl
      rw [writeComment, counted_append, counted_append, comment, ih, behind, List.append_nil,
        List.append_nil]

theorem counted_line (writer : Writer) {text : String} (full : text.isEmpty = false) :
    counted [writer.indentation, .line text] = [.line text] := by
  simp [counted, counts, isSeparator, isValue, startsItem, indentation, full]

theorem counted_emptyLine (writer : Writer) {text : String} (empty : text.isEmpty = true) :
    counted [writer.indentation, .line text] = [] := by
  simp [counted, counts, isSeparator, isValue, startsItem, indentation, empty]

/-- What an operation writes is allowed, and the writer keeps track of it. -/
theorem Tracked.attempt (tracked : Tracked pieces writer) {operation : Operation}
    (grouped : operation.Grouped) :
    Tracked (pieces ++ counted (writer.attempt operation).1) (writer.attempt operation).2 := by
  have settled := tracked.settle
  cases operation with
  | newline => exact settled
  | directive text =>
      change Tracked (pieces ++ counted (_ ++ _)) (writer.settle false)
      rw [counted_directive]
      exact settled
  | line text =>
      change Tracked (pieces ++ counted (writer.lineBreak ++ _)) (writer.settle (!text.isEmpty))
      rw [counted_append, ← List.append_assoc]
      cases empty : text.isEmpty with
      | true =>
          rw [counted_emptyLine writer empty, List.append_nil]
          exact settled
      | false =>
          rw [counted_line writer empty]
          have starts : (Piece.line text).startsItem = true := by simp [startsItem, empty]
          exact settled.item starts (Int.add_zero _).symm starts.symm
  | comment text =>
      change Tracked (pieces ++ counted (writer.writeComment _).1) (writer.writeComment _).2
      cases lines : commentLines text with
      | nil => exact absurd lines (commentLines_ne_nil text)
      | cons line later =>
          rw [counted_writeComment, (writer.writeComment_cons line later).2]
          exact settled
  | openBlock header levels =>
      rw [counted_openBlock, ← List.append_assoc]
      exact settled.item rfl (Int.natCast_add _ _) rfl
  | closeBlock levels =>
      by_cases opened : levels ≤ writer.depth
      · have written : writer.attempt (.closeBlock levels) =
            ([.lineEnd, .indent (writer.columns * (writer.depth - levels)), .closeBraces levels],
              { writer with depth := writer.depth - levels, pending := true }) := by
          simp [Writer.attempt, perform, opened]
          rfl
        rw [written]
        have inside : (levels : Int) ≤ depthBehind pieces := by rw [tracked.depth]; omega
        refine tracked.snoc (.closing grouped inside) ?_ rfl
        change ((writer.depth - levels : Nat) : Int) = writer.depth + -levels
        omega
      · have refused : writer.attempt (.closeBlock levels) = ([], writer) := by
          simp [Writer.attempt, perform, opened]
        rw [refused]
        simpa [counted] using tracked

/-- What operations write is allowed, and the writer keeps track of it. -/
theorem Tracked.run (tracked : Tracked pieces writer) {operations : List Operation}
    (grouped : ∀ operation ∈ operations, operation.Grouped) :
    Tracked (pieces ++ counted (writer.run operations).1) (writer.run operations).2 := by
  induction operations generalizing pieces writer with
  | nil => simpa [counted] using tracked
  | cons operation later ih =>
      have first := tracked.attempt (grouped operation List.mem_cons_self)
      have rest := ih first fun other member => grouped other (List.mem_cons_of_mem _ member)
      rw [run_cons, counted_append, ← List.append_assoc]
      exact rest

end Writer

/-- In whatever order operations come, the separators between values are those that the values
need, and the depth that decides about them is the depth of the writer. -/
theorem run_disciplined (columns : Nat) {operations : List Operation}
    (grouped : ∀ operation ∈ operations, operation.Grouped) :
    Disciplined (counted ((Writer.fresh columns).run operations).1) ∧
      depthBehind (counted ((Writer.fresh columns).run operations).1) =
        ((Writer.fresh columns).run operations).2.depth := by
  have tracked := (Writer.tracked_fresh columns).run grouped
  exact ⟨tracked.written.disciplined, tracked.depth⟩

/-- Braces that are opened together are closed one by one, and what is not open is not closed. -/
theorem run_disciplined_refused :
    let operations : List Operation :=
      [.closeBlock 1, .openBlock (some "a") 2, .line "1", .comment "x", .line "2", .newline,
        .closeBlock 1, .line "", .directive "d", .line "3", .closeBlock 2, .closeBlock 1,
        .comment "y", .openBlock none 1, .closeBlock 1, .closeBlock 1]
    (∀ operation ∈ operations, operation.Grouped) ∧
      counted ((Writer.fresh 3).run operations).1 =
        [.openBraces 2, .line "1", .comma, .line "2", .comma, .closeBraces 1, .comma, .line "3",
          .closeBraces 1, .semicolon, .openBraces 1, .closeBraces 1] ∧
      Disciplined (counted ((Writer.fresh 3).run operations).1) := by
  intro operations
  have grouped : ∀ operation ∈ operations, operation.Grouped := by
    simp [operations, Operation.Grouped]
  refine ⟨grouped, ?_, (run_disciplined 3 grouped).1⟩
  decide

end BusTables.Initializer
