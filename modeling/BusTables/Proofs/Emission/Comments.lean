import BusTables.Proofs.Emission.Text
import BusTables.Proofs.Text.Continuation

/-!
# Comments that go on

A line of a comment is cleaned of what would make it go on with the next line.  No line that is
written for a comment ends in a reverse solidus itself, but where more is skipped at the end of a
line, a reverse solidus may survive, and then the line goes on; this is said exactly, for every
state of the writer and for the line above the transitions of a command
(`comment_continues_iff`).
-/

namespace BusTables

namespace Initializer

theorem commentLines_eq (text : String) :
    commentLines text =
      ((Text.trimmed text.toList).splitOn '\n').map fun line =>
        String.ofList (Text.cleaned line) :=
  rfl

namespace Writer

/-- The lines that an operation writes, the end of the line before them first. -/
def linesWritten (writer : Writer) (operation : Operation) : List (List Char) :=
  (Piece.joined (writer.attempt operation).1).toList.splitOn '\n'

/-- What a line break puts behind the lines that it ends. -/
def brokenLines (writer : Writer) : List (List Char) :=
  if writer.pending then if 0 < writer.depth then [[',']] else [[';'], []] else [[]]

theorem toList_lineBreak (writer : Writer) :
    (Piece.joined writer.lineBreak).toList = Text.unlines writer.brokenLines := by
  unfold lineBreak brokenLines
  split
  · split <;> rfl
  · rfl

theorem free_brokenLines (writer : Writer) :
    ∀ line ∈ writer.brokenLines, '\n' ∉ line ∧ '\\' ∉ line := by
  unfold brokenLines
  split
  · split <;> decide
  · decide

end Writer

/-- A line of a comment, as it is written at a depth. -/
def commentLine (columns depth : Nat) (line : List Char) : List Char :=
  lineAt columns depth (commentText (String.ofList (Text.cleaned line)))

theorem map_commentLine (columns depth : Nat) (text : String) :
    ((Text.trimmed text.toList).splitOn '\n').map (commentLine columns depth) =
      (commentLines text).map fun line => lineAt columns depth (commentText line) := by
  rw [commentLines_eq, List.map_map]
  rfl

/-- A comment ends the line before it, and each of its lines stands on a line of its own. -/
theorem Writer.linesWritten_comment (writer : Writer) (text : String) :
    writer.linesWritten (.comment text) =
      writer.brokenLines ++ ((Text.trimmed text.toList).splitOn '\n').map
        (commentLine writer.columns writer.depth) := by
  have written : Piece.joined (writer.attempt (.comment text)).1 =
      Piece.joined writer.lineBreak ++ layoutComment writer.columns writer.depth text := by
    simpa [run_cons] using (writer.run_comment text).1
  rw [map_commentLine]
  refine Text.splitOn_of_ended (fun line member => ?_) ?_
  · rcases List.mem_append.mp member with broken | comment
    · exact (writer.free_brokenLines line broken).1
    · obtain ⟨part, among, rfl⟩ := List.mem_map.mp comment
      apply whole_lineAt
      simpa [commentText] using whole_commentLines among
  · rw [written, Text.unlines_append, ← toList_layoutComment, ← toList_lineBreak]
    simp

/-- A line of a comment goes on exactly if a reverse solidus survives in it. -/
theorem continues_commentLine {skipped : Char → Bool} (apart : skipped '\\' = false)
    (columns depth : Nat) (line : List Char) :
    Text.Continues skipped (commentLine columns depth line) ↔ Text.Survives skipped line := by
  have split : commentLine columns depth line =
      lineAt columns depth ['/', '/', ' '] ++ Text.cleaned line := by
    simp [commentLine, lineAt, commentText]
  have free : '\\' ∉ lineAt columns depth ['/', '/', ' '] := by
    intro member
    rcases List.mem_append.mp member with blank | mark
    · exact absurd (List.eq_of_mem_replicate blank) (by decide)
    · exact absurd mark (by decide)
  rw [split, Text.continues_append apart free, Text.continues_cleaned_iff apart]

/-- What ends the line before a comment does not go on, so that only its own lines may. -/
theorem Writer.continues_written_iff {skipped : Char → Bool} (apart : skipped '\\' = false)
    (writer : Writer) (text : String) :
    (∃ line ∈ writer.linesWritten (.comment text), Text.Continues skipped line) ↔
      ∃ line ∈ (Text.trimmed text.toList).splitOn '\n', Text.Survives skipped line := by
  rw [linesWritten_comment]
  constructor
  · rintro ⟨line, member, continues⟩
    rcases List.mem_append.mp member with broken | comment
    · obtain ⟨before, between, rfl, -⟩ := (Text.continues_iff apart line).mp continues
      exact absurd (by simp) (writer.free_brokenLines _ broken).2
    · obtain ⟨source, among, rfl⟩ := List.mem_map.mp comment
      exact ⟨source, among, (continues_commentLine apart _ _ source).mp continues⟩
  · rintro ⟨source, among, survives⟩
    exact ⟨_, List.mem_append_right _ (List.mem_map_of_mem among),
      (continues_commentLine apart _ _ source).mpr survives⟩

theorem lines_comment (columns depth : Nat) (isLast : Bool) (text : String) :
    (Item.comment text).lines columns depth isLast =
      ((Text.trimmed text.toList).splitOn '\n').map (commentLine columns depth) := by
  rw [Item.lines, map_commentLine]

/-- The lines of an item are found among those of a list. -/
theorem exists_lines_of_mem {item : Item} {items : List Item} (member : item ∈ items)
    (columns depth : Nat) :
    ∃ above isLast below, Item.allLines columns depth items =
      above ++ (item.lines columns depth isLast ++ below) := by
  induction items with
  | nil => cases member
  | cons first later ih =>
      rcases List.mem_cons.mp member with rfl | among
      · exact ⟨[], _, _, rfl⟩
      · obtain ⟨above, isLast, below, found⟩ := ih among
        exact ⟨first.lines columns depth later.isEmpty ++ above, isLast, below, by
          rw [Item.allLines, found, List.append_assoc]⟩

/-- The lines of an item in a block are found one level deeper. -/
theorem exists_lines_of_mem_block {header : Option String} {inner items : List Item} {item : Item}
    (outer : .block header inner ∈ items) (member : item ∈ inner) (columns depth : Nat) :
    ∃ above isLast below, Item.allLines columns depth items =
      above ++ (item.lines columns (depth + 1) isLast ++ below) := by
  obtain ⟨above, last, below, whole⟩ := exists_lines_of_mem outer columns depth
  obtain ⟨before, isLast, behind, inside⟩ := exists_lines_of_mem member columns (depth + 1)
  rw [Item.lines, inside] at whole
  refine ⟨above ++ lineAt columns depth (openingText header) :: before, isLast,
    behind ++ ended depth last (lineAt columns depth ['\x7d']) ++ below, ?_⟩
  rw [whole]
  simp

end Initializer

open Initializer

/-- The line of a command that names its transitions. -/
def Command.transitionLine (command : Command) : List Char :=
  lineAt Emission.columns 2 (".Transition = " ++ transitionMask command.transitions).toList

/-- Right above the transitions of a command stands a line of its comment. -/
def Command.StandsBelow (command : Command) (line text : List Char) : Prop :=
  ∃ above below, text =
    Text.unlines (above ++ [commentLine Emission.columns 2 line]) ++
      (command.transitionLine ++ below)

theorem Declaration.lines_commandItem (address : UInt16) (entry : PlacedCommand) (isLast : Bool)
    (commented : Text.trim entry.command.comment ≠ "") :
    ∃ above below, (commandItem address entry).lines Emission.columns 1 isLast =
      above :: (((Text.trimmed entry.command.comment.toList).splitOn '\n').map
          (commentLine Emission.columns 2) ++
        (entry.command.transitionLine ++ [',']) :: below) := by
  have comment : commentItems entry.command.comment = [.comment entry.command.comment] := by
    simp [commentItems, commented]
  rw [commandItem_eq, comment, Item.lines, List.singleton_append, Item.allLines, lines_comment,
    List.append_assoc]
  exact ⟨_, _, rfl⟩

/-- The comment of a command ends right above the transitions of the command. -/
theorem Emission.standsBelow_text (header : String) {configuration : Configuration}
    {slave : Slave} (given : slave ∈ configuration.slaves) {command : Command}
    (among : command ∈ slave.commands) (commented : Text.trim command.comment ≠ "") :
    ∃ line ∈ ((Text.trimmed command.comment.toList).splitOn '\n').getLast?,
      command.StandsBelow line (text header configuration).toList := by
  have busy : slave ∈ configuration.busy :=
    Configuration.mem_busy.mpr ⟨given, List.ne_nil_of_mem among⟩
  rw [← map_command_place slave.commands] at among
  obtain ⟨entry, placed, rfl⟩ := List.mem_map.mp among
  have outer : Item.block (some slave.commandsDeclaration.header) slave.commandsDeclaration.items ∈
      configuration.items :=
    List.mem_map_of_mem (Configuration.mem_declarations_of_slave busy)
  have inner : Declaration.commandItem slave.address entry ∈ slave.commandsDeclaration.items :=
    List.mem_map_of_mem placed
  obtain ⟨above, isLast, below, found⟩ := exists_lines_of_mem_block outer inner columns 0
  obtain ⟨opening, fields, written⟩ :=
    Declaration.lines_commandItem slave.address entry isLast commented
  rcases List.eq_nil_or_concat ((Text.trimmed entry.command.comment.toList).splitOn '\n') with
    none | ⟨earlier, last, lines⟩
  · exact absurd none (List.splitOn_ne_nil _ _)
  · rw [List.concat_eq_append] at lines
    rw [lines, List.map_append] at written
    refine ⟨last, by rw [lines, List.getLast?_concat]; rfl,
      ("#include \"" ++ header ++ "\"").toList :: [] :: (above ++ opening ::
        earlier.map (commentLine columns 2)), ',' :: '\n' :: Text.unlines (fields ++ below), ?_⟩
    rw [toList_text, found, written]
    simp

/-- No line that is written for a comment ends in a reverse solidus.  Where more is skipped at the
end of a line, a line goes on exactly if a reverse solidus survives in it, and so does the line
above the transitions of a command. -/
theorem comment_continues_iff {skipped : Char → Bool} (apart : skipped '\\' = false) :
    (∀ (writer : Writer) (text : String), ∀ line ∈ writer.linesWritten (.comment text),
        line.getLast? ≠ some '\\') ∧
      (∀ (writer : Writer) (text : String),
        (∃ line ∈ writer.linesWritten (.comment text), Text.Continues skipped line) ↔
          ∃ line ∈ (Text.trimmed text.toList).splitOn '\n', Text.Survives skipped line) ∧
      ∀ (header : String) (configuration : Configuration), ∀ slave ∈ configuration.slaves,
        ∀ command ∈ slave.commands, Text.trim command.comment ≠ "" →
          ∃ line ∈ ((Text.trimmed command.comment.toList).splitOn '\n').getLast?,
            command.StandsBelow line (Emission.text header configuration).toList ∧
              (Text.Continues skipped (commentLine Emission.columns 2 line) ↔
                Text.Survives skipped line) := by
  refine ⟨?_, ?_, ?_⟩
  · intro writer text line member ends
    have plain := @Writer.continues_written_iff (fun _ => false) rfl writer text
    obtain ⟨source, -, survives⟩ := plain.mp ⟨line, member, (Text.continues_none line).mpr ends⟩
    exact Text.not_survives_none source survives
  · exact fun writer text => writer.continues_written_iff apart text
  · intro header configuration slave given command among commented
    obtain ⟨line, last, stands⟩ := Emission.standsBelow_text header given among commented
    exact ⟨line, last, stands, continues_commentLine apart Emission.columns 2 line⟩

/-- A reverse solidus in front of a blank survives. -/
theorem comment_continues_iff_blank :
    Text.isBlank '\\' = false ∧
      ∃ line ∈ (Writer.fresh 3).linesWritten (.comment "a\\ \nb"),
        Text.Continues Text.isBlank line := by
  refine ⟨by decide, ((comment_continues_iff (by decide)).2.1 _ _).mpr ?_⟩
  exact ⟨['a', '\\', ' '], by decide, ['a'], [' '], 0, 0, rfl, by decide,
    List.forall_mem_singleton.mpr (by decide), by decide⟩

/-- A reverse solidus in front of a carriage return and another reverse solidus survives, and the
transitions of the command become part of the comment. -/
theorem comment_goes_on :
    (¬∀ (writer : Writer) (text : String), ∀ line ∈ writer.linesWritten (.comment text),
        ¬Text.Continues Text.isBlank line) ∧
      ∃ above below, (Emission.text "ecat.h"
          ⟨[⟨1, 2, 3, 4, [⟨"a\\\r\\", ["PS"], false, 1, 0x1c12, 0, 0, [5]⟩]⟩]⟩).toList =
        above ++ "      // a\\\r\n      .Transition = ECT_ESMTRANS_PS".toList ++ below := by
  constructor
  · intro never
    refine never (.fresh 3) "a\\\r\\" "// a\\\r".toList (by decide +kernel) ?_
    exact (Text.continues_iff (by decide) _).mpr
      ⟨"// a".toList, ['\r'], by decide, List.forall_mem_singleton.mpr (by decide)⟩
  · let command : Command := ⟨"a\\\r\\", ["PS"], false, 1, 0x1c12, 0, 0, [5]⟩
    let slave : Slave := ⟨1, 2, 3, 4, [command]⟩
    have given : slave ∈ (Configuration.mk [slave]).slaves := List.mem_singleton.mpr rfl
    have among : command ∈ slave.commands := List.mem_singleton.mpr rfl
    obtain ⟨line, last, above, below, whole⟩ :=
      Emission.standsBelow_text "ecat.h" given among (by decide)
    have ends : ((Text.trimmed command.comment.toList).splitOn '\n').getLast? =
        some "a\\\r\\".toList := by
      decide
    have single := Option.some.inj ((Option.mem_def.mp last).symm.trans ends)
    have written : commentLine Emission.columns 2 line = "      // a\\\r".toList := by
      rw [single]
      decide
    have next : command.transitionLine = "      .Transition = ECT_ESMTRANS_PS".toList := by decide
    refine ⟨Text.unlines above, below, ?_⟩
    rw [whole, written, next]
    simp

end BusTables
