import BusTables.Proofs.Initializer.Listing

/-!
# Directives and the lines they stand on

A directive settles the separator that is due, which ends the line before it, and otherwise is
written where the writer stands.  A line that is left unfinished with no separator due is not
ended: that of a comment or of an opening brace, and the indentation of an empty line.  So a
directive stands on a line of its own unless the last operation before it that was not refused
left such a line (`directive_alone_iff`).
-/

namespace BusTables.Initializer

/-- What comes behind a text starts a line. -/
def AtLineStart (text : String) : Prop := ∀ last ∈ text.toList.getLast?, last = '\n'

/-- An operation leaves a line unfinished, with no separator due: one of a comment, one with a
header, with opening braces or with nothing but an indentation. -/
def Operation.leavesOpen (writer : Writer) : Operation → Bool
  | .comment _ => true
  | .openBlock header levels =>
      header.isSome || decide (0 < levels) || decide (0 < writer.columns * writer.depth)
  | .line text => text.isEmpty && decide (0 < writer.columns * writer.depth)
  | _ => false

namespace Piece

/-- The last character of pieces. -/
def last? (pieces : List Piece) : Option Char := (joined pieces).toList.getLast?

@[simp] theorem last?_append (first later : List Piece) :
    last? (first ++ later) = (last? later).or (last? first) := by
  rw [last?, joined_append, String.toList_append, List.getLast?_append]
  rfl

theorem last?_singleton (piece : Piece) : last? [piece] = piece.text.toList.getLast? := by
  simp [last?]

theorem last?_indent (width : Nat) :
    last? [.indent width] = if 0 < width then some ' ' else none := by
  cases width with
  | zero => rfl
  | succ width => simp [last?_singleton, text, repeated, List.getLast?_replicate]

theorem last?_openBraces (levels : Nat) :
    last? [.openBraces levels] = if 0 < levels then some '\x7b' else none := by
  cases levels with
  | zero => rfl
  | succ levels => simp [last?_singleton, text, repeated, List.getLast?_replicate]

theorem last?_header (header : Option String) :
    last? (header.map Piece.header).toList = if header.isSome then some ' ' else none := by
  cases header with
  | none => rfl
  | some header => simp [last?_singleton, text]

theorem atLineStart_iff {pieces : List Piece} {last : Char} (ends : last? pieces = some last) :
    AtLineStart (joined pieces) ↔ last = '\n' := by
  rw [AtLineStart, ← last?, ends]
  simp only [Option.mem_def, Option.some.injEq, forall_eq']

end Piece

open Piece

namespace Writer

/-- What a directive settles before it is written. -/
def settling (writer : Writer) : List Piece := if writer.pending then writer.lineBreak else []

theorem last?_lineBreak (writer : Writer) : last? writer.lineBreak = some '\n' := by
  unfold lineBreak
  split
  · split <;> decide
  · decide

theorem attempt_newline (writer : Writer) :
    writer.attempt .newline = (writer.lineBreak, writer.settle false) :=
  rfl

theorem attempt_directive (writer : Writer) (text : String) :
    writer.attempt (.directive text) =
      (writer.settling ++ [.directive text, .lineEnd], writer.settle false) :=
  rfl

theorem attempt_line (writer : Writer) (text : String) :
    writer.attempt (.line text) =
      (writer.lineBreak ++ [writer.indentation, .line text], writer.settle (!text.isEmpty)) :=
  rfl

theorem attempt_comment (writer : Writer) (text : String) :
    writer.attempt (.comment text) = writer.writeComment (commentLines text) :=
  rfl

theorem attempt_openBlock (writer : Writer) (header : Option String) (levels : Nat) :
    writer.attempt (.openBlock header levels) =
      (writer.lineBreak ++ [writer.indentation] ++ (header.map Piece.header).toList ++
        [.openBraces levels],
      { writer with depth := writer.depth + levels, pending := false }) :=
  rfl

theorem attempt_of_refused {writer : Writer} {operation : Operation}
    (refused : (writer.perform operation).isOk = false) :
    writer.attempt operation = ([], writer) := by
  unfold attempt
  cases ended : writer.perform operation with
  | error fault => rfl
  | ok next =>
      rw [ended] at refused
      cases refused

/-- The last operation that is not refused, with the writer that it finds. -/
def lastAccepted? (writer : Writer) : List Operation → Option (Writer × Operation)
  | [] => none
  | operation :: later =>
      ((writer.attempt operation).2.lastAccepted? later).or
        (if (writer.perform operation).isOk then some (writer, operation) else none)

variable (writer : Writer)

theorem exists_writeComment (line : String) (later : List String) :
    ∃ earlier, ∃ written ∈ line :: later,
      (writer.writeComment (line :: later)).1 = earlier ++ [.comment written] := by
  induction later generalizing writer line with
  | nil => exact ⟨writer.lineBreak ++ [writer.indentation], line, by simp, by simp [writeComment]⟩
  | cons next rest ih =>
      obtain ⟨earlier, written, among, equal⟩ := ih (writer.settle false) next
      refine ⟨writer.lineBreak ++ [writer.indentation, .comment line] ++ earlier, written,
        List.mem_cons_of_mem line among, ?_⟩
      change writer.lineBreak ++ [writer.indentation, .comment line] ++
        ((writer.settle false).writeComment (next :: rest)).1 = _
      rw [equal, List.append_assoc _ earlier]

/-- What settles a separator that is due ends a line. -/
theorem last?_settling_of_pending (due : writer.pending = true) (pieces : List Piece) :
    last? (pieces ++ writer.settling) = some '\n' := by
  rw [settling, if_pos due, last?_append, last?_lineBreak, Option.some_or]

theorem append_settling_of_settled (settled : writer.pending = false) (pieces : List Piece) :
    pieces ++ writer.settling = pieces := by
  rw [settling, settled, if_neg Bool.false_ne_true, List.append_nil]

/-- A directive behind an operation starts a line, or it does not and a line is left open. -/
def Leaves (writer : Writer) (operation : Operation) : Prop :=
  ∃ last, last? ((writer.attempt operation).1 ++ (writer.attempt operation).2.settling) =
      some last ∧
    (last = '\n' ↔ operation.leavesOpen writer = false)

theorem leaves_line (text : String) : writer.Leaves (.line text) := by
  rw [Leaves, attempt_line, Operation.leavesOpen]
  cases empty : text.isEmpty with
  | false => exact ⟨'\n', last?_settling_of_pending _ rfl _, by simp⟩
  | true =>
      obtain rfl : text = "" := by simpa using empty
      rw [append_settling_of_settled _ rfl, last?_append, last?_lineBreak, ← List.singleton_append,
        last?_append, indentation, last?_indent, last?_singleton]
      by_cases indented : 0 < writer.columns * writer.depth
      · exact ⟨' ', by simp [indented, Piece.text], by simp [indented]⟩
      · exact ⟨'\n', by simp [indented, Piece.text], by simp [indented]⟩

theorem leaves_comment (text : String) : writer.Leaves (.comment text) := by
  rw [Leaves, attempt_comment]
  cases lines : commentLines text with
  | nil => exact absurd lines (commentLines_ne_nil text)
  | cons line later =>
      obtain ⟨earlier, written, among, equal⟩ := writer.exists_writeComment line later
      rw [← lines] at among
      rw [(writer.writeComment_cons line later).2, append_settling_of_settled _ rfl, equal,
        last?_append, last?_singleton]
      have mark : (Piece.comment written).text.toList.getLast? =
          written.toList.getLast?.or (some ' ') := by
        rw [Piece.text, String.toList_append, List.getLast?_append]
        rfl
      rw [mark]
      cases ends : written.toList.getLast? with
      | none => exact ⟨' ', rfl, by simp [Operation.leavesOpen]⟩
      | some last =>
          -- A line of a comment holds no end of a line.
          have other : last ≠ '\n' := by
            rintro rfl
            exact whole_commentLines among (List.mem_of_getLast? ends)
          exact ⟨last, rfl, by simp [Operation.leavesOpen, other]⟩

theorem leaves_openBlock (header : Option String) (levels : Nat) :
    writer.Leaves (.openBlock header levels) := by
  rw [Leaves, attempt_openBlock, append_settling_of_settled _ rfl, Operation.leavesOpen]
  simp only [last?_append, last?_openBraces, last?_header, indentation, last?_indent,
    last?_lineBreak]
  by_cases braced : 0 < levels
  · exact ⟨'\x7b', by simp [braced], by simp [braced]⟩
  · cases header with
    | some header => exact ⟨' ', by simp [braced], by simp⟩
    | none =>
        by_cases indented : 0 < writer.columns * writer.depth
        · exact ⟨' ', by simp [braced, indented], by simp [indented]⟩
        · exact ⟨'\n', by simp [braced, indented], by simp [braced, indented]⟩

theorem leaves_closeBlock {levels : Nat} (opened : levels ≤ writer.depth) :
    writer.Leaves (.closeBlock levels) := by
  have due : (writer.attempt (.closeBlock levels)).2.pending = true := by
    rw [attempt, perform, if_pos opened]
  exact ⟨'\n', last?_settling_of_pending _ due _, by simp [Operation.leavesOpen]⟩

/-- An operation that is not refused decides by itself whether a directive behind it starts a
line. -/
theorem leaves_of_accepted {operation : Operation}
    (accepted : (writer.perform operation).isOk) : writer.Leaves operation := by
  cases operation with
  | newline =>
      rw [Leaves, attempt_newline, append_settling_of_settled _ rfl, last?_lineBreak]
      exact ⟨'\n', rfl, by simp [Operation.leavesOpen]⟩
  | directive text =>
      rw [Leaves, attempt_directive, append_settling_of_settled _ rfl,
        ← List.singleton_append, last?_append, last?_append]
      exact ⟨'\n', rfl, by simp [Operation.leavesOpen]⟩
  | line text => exact writer.leaves_line text
  | comment text => exact writer.leaves_comment text
  | openBlock header levels => exact writer.leaves_openBlock header levels
  | closeBlock levels =>
      by_cases opened : levels ≤ writer.depth
      · exact writer.leaves_closeBlock opened
      · rw [perform, if_neg opened] at accepted
        cases accepted

/-- What a run leaves is decided by the last operation that is not refused. -/
theorem last?_run (operations : List Operation) :
    (writer.lastAccepted? operations = none → writer.run operations = ([], writer)) ∧
      ∀ found ∈ writer.lastAccepted? operations,
        ∃ last, last? ((writer.run operations).1 ++ (writer.run operations).2.settling) =
            some last ∧
          (last = '\n' ↔ found.2.leavesOpen found.1 = false) := by
  induction operations generalizing writer with
  | nil => exact ⟨fun _ => rfl, fun _ none => nomatch none⟩
  | cons operation later ih =>
      obtain ⟨nothing, something⟩ := ih (writer.attempt operation).2
      rw [lastAccepted?, run_cons]
      cases behind : (writer.attempt operation).2.lastAccepted? later with
      | some found =>
          obtain ⟨last, ends, decides⟩ := something found behind
          constructor
          · intro none
            cases none
          · intro other same
            obtain rfl := Option.some.inj same
            exact ⟨last, by rw [List.append_assoc, last?_append, ends]; rfl, decides⟩
      | none =>
          rw [nothing behind, List.append_nil, Option.none_or]
          cases accepted : (writer.perform operation).isOk with
          | true =>
              constructor
              · intro none
                cases none
              · intro found same
                obtain rfl := Option.some.inj same
                exact writer.leaves_of_accepted accepted
          | false =>
              rw [attempt_of_refused accepted]
              constructor
              · exact fun _ => rfl
              · intro found none
                cases none

end Writer

/-- A directive behind operations starts a line exactly if the last of them that was not refused
left no line open. -/
theorem directive_alone_iff (columns : Nat) (operations : List Operation) (text : String) :
    ∃ before, Piece.joined ((Writer.fresh columns).run (operations ++ [.directive text])).1 =
        before ++ ("#" ++ text ++ "\n") ∧
      (AtLineStart before ↔ ∀ found ∈ (Writer.fresh columns).lastAccepted? operations,
        found.2.leavesOpen found.1 = false) := by
  let writer := Writer.fresh columns
  refine ⟨Piece.joined ((writer.run operations).1 ++ (writer.run operations).2.settling), ?_, ?_⟩
  · have written : (writer.run (operations ++ [.directive text])).1 =
        (writer.run operations).1 ++ ((writer.run operations).2.settling ++
          [.directive text, .lineEnd]) := by
      rw [Writer.run_append, Writer.run_cons, Writer.run_nil, Writer.attempt_directive,
        List.append_nil]
    rw [written, ← List.append_assoc, Piece.joined_append]
    simp [Piece.text]
  · obtain ⟨nothing, something⟩ := writer.last?_run operations
    cases behind : writer.lastAccepted? operations with
    | none =>
        rw [nothing behind]
        constructor
        · intro _ found none
          cases none
        · intro _ last none
          cases none
    | some found =>
        obtain ⟨last, ends, decides⟩ := something found behind
        rw [atLineStart_iff ends, decides]
        simp only [Option.mem_def, Option.some.injEq, forall_eq']

/-- A directive behind a comment becomes part of the comment. -/
theorem directive_in_comment :
    Piece.joined ((Writer.fresh 3).run [.comment "a", .directive "d"]).1 = "\n// a#d\n" ∧
      ¬∀ (columns : Nat) (operations : List Operation) (text before : String),
        Piece.joined ((Writer.fresh columns).run (operations ++ [.directive text])).1 =
          before ++ ("#" ++ text ++ "\n") → AtLineStart before := by
  have written :
      Piece.joined ((Writer.fresh 3).run [.comment "a", .directive "d"]).1 = "\n// a#d\n" := by
    decide +kernel
  refine ⟨written, fun always => ?_⟩
  have starts := always 3 [.comment "a"] "d" "\n// a" written
  exact absurd (starts 'a' (by decide)) (by decide)

end BusTables.Initializer
