import BusTables.Proofs.Initializer.Sheet
import Mathlib.Algebra.GroupWithZero.Nat
import Mathlib.Data.List.Count
import Mathlib.Data.List.Infix

/-!
# Braces and depth

Blocks are opened and closed by any number of levels at once, in any order.  The depth of the
writer is the number of braces that it has opened, less those that it has closed, and nowhere in
the text have more been closed than opened.  To close more than is open is refused, and then the
run goes on as if nothing had been asked (`braces_exact`).

Braces can also stand in a value, a header, a comment or a directive.  So a character of the text
is kept with a mark that tells whether it is a brace of a block (`Piece.marked`).
-/

namespace BusTables.Initializer

namespace Operation

/-- The number of levels that an operation opens. -/
def opens : Operation → Nat
  | .openBlock _ levels => levels
  | _ => 0

/-- The number of levels that an operation closes. -/
def closes : Operation → Nat
  | .closeBlock levels => levels
  | _ => 0

end Operation

namespace Piece

/-- The braces of blocks. -/
def isBraces : Piece → Bool
  | .openBraces _ => true
  | .closeBraces _ => true
  | _ => false

/-- The characters of pieces, marked where they are braces of blocks. -/
def marked (pieces : List Piece) : List (Char × Bool) :=
  pieces.flatMap fun piece => piece.text.toList.map (·, piece.isBraces)

/-- A brace that opens a block. -/
def opening : Char × Bool := ('\x7b', true)

/-- A brace that closes a block. -/
def closing : Char × Bool := ('\x7d', true)

@[simp] theorem marked_append (first later : List Piece) :
    marked (first ++ later) = marked first ++ marked later :=
  List.flatMap_append

theorem map_fst_marked (pieces : List Piece) :
    (marked pieces).map Prod.fst = (joined pieces).toList := by
  have kept (piece : Piece) :
      (piece.text.toList.map (·, piece.isBraces)).map Prod.fst = piece.text.toList := by
    rw [List.map_map]
    exact List.map_id _
  rw [marked, List.map_flatMap, joined, String.toList_join, List.flatMap_map]
  exact congrArg (List.flatMap · pieces) (funext kept)

/-- There are no braces of blocks among pieces. -/
def Plain (pieces : List Piece) : Prop := ∀ piece ∈ pieces, piece.isBraces = false

namespace Plain

theorem nil : Plain [] :=
  fun _ member => absurd member List.not_mem_nil

theorem append {first later : List Piece} (plain : Plain first) (rest : Plain later) :
    Plain (first ++ later) :=
  List.forall_mem_append.mpr ⟨plain, rest⟩

theorem count_eq_zero {pieces : List Piece} (plain : Plain pieces) {mark : Char × Bool}
    (brace : mark.2 = true) : (marked pieces).count mark = 0 := by
  refine List.count_eq_zero.mpr fun member => ?_
  obtain ⟨piece, among, inside⟩ := List.mem_flatMap.mp member
  obtain ⟨character, -, rfl⟩ := List.mem_map.mp inside
  cases (plain piece among).symm.trans brace

/-- The braces of blocks are those of the pieces behind. -/
theorem count_append {pieces later : List Piece} (plain : Plain pieces) {mark : Char × Bool}
    (brace : mark.2 = true) :
    (marked (pieces ++ later)).count mark = (marked later).count mark := by
  rw [marked_append, List.count_append, plain.count_eq_zero brace, Nat.zero_add]

end Plain

theorem marked_openBraces (levels : Nat) :
    marked [.openBraces levels] = List.replicate levels opening := by
  simp [marked, text, repeated, isBraces, opening]

theorem marked_closeBraces (levels : Nat) :
    marked [.closeBraces levels] = List.replicate levels closing := by
  simp [marked, text, repeated, isBraces, closing]

end Piece

open Piece

namespace Writer

theorem plain_lineBreak (writer : Writer) : Plain writer.lineBreak := by
  unfold lineBreak
  split
  · split <;> simp [Plain, isBraces]
  · simp [Plain, isBraces]

theorem plain_writeComment (writer : Writer) (lines : List String) :
    Plain (writer.writeComment lines).1 := by
  induction lines generalizing writer with
  | nil => exact .nil
  | cons line later ih =>
      have line : Plain [writer.indentation, .comment line] := by
        simp [Plain, indentation, isBraces]
      exact (writer.plain_lineBreak.append line).append (ih (writer.settle false))

theorem depth_writeComment (writer : Writer) (lines : List String) :
    (writer.writeComment lines).2.depth = writer.depth := by
  induction lines generalizing writer with
  | nil => rfl
  | cons line later ih => exact ih (writer.settle false)

/-- An operation writes the braces that it opens and closes, and the depth follows. -/
structure Braces (before : Writer) (operation : Operation) (pieces : List Piece)
    (after : Writer) : Prop where
  opened : (marked pieces).count opening = operation.opens
  closed : (marked pieces).count closing = operation.closes
  within : operation.closes ≤ before.depth
  depth : after.depth + operation.closes = before.depth + operation.opens

theorem braces_of_plain {before after : Writer} {operation : Operation} {pieces : List Piece}
    (plain : Plain pieces) (opens : operation.opens = 0) (closes : operation.closes = 0)
    (depth : after.depth = before.depth) : Braces before operation pieces after where
  opened := opens ▸ plain.count_eq_zero rfl
  closed := closes ▸ plain.count_eq_zero rfl
  within := by omega
  depth := by omega

theorem braces_of_perform {before after : Writer} {operation : Operation} {pieces : List Piece}
    (accepted : before.perform operation = .ok (pieces, after)) :
    Braces before operation pieces after := by
  have broken := before.plain_lineBreak
  cases operation with
  | newline =>
      cases accepted
      exact braces_of_plain broken rfl rfl rfl
  | directive text =>
      cases accepted
      have settled : Plain (if before.pending then before.lineBreak else []) := by
        split
        · exact broken
        · exact .nil
      exact braces_of_plain (settled.append (by simp [Plain, isBraces])) rfl rfl rfl
  | line text =>
      cases accepted
      exact braces_of_plain (broken.append (by simp [Plain, indentation, isBraces])) rfl rfl rfl
  | comment text =>
      have written := before.plain_writeComment (commentLines text)
      have depth := before.depth_writeComment (commentLines text)
      rw [Except.ok.inj accepted] at written depth
      exact braces_of_plain written rfl rfl depth
  | openBlock header levels =>
      cases accepted
      have named : Plain (header.map Piece.header).toList := by
        cases header <;> simp [Plain, isBraces]
      have plain : Plain (before.lineBreak ++ [before.indentation] ++
          (header.map Piece.header).toList) :=
        (broken.append (by simp [Plain, indentation, isBraces])).append named
      constructor
      · rw [plain.count_append rfl, marked_openBraces]
        exact List.count_replicate_self
      · rw [plain.count_append rfl, marked_openBraces]
        exact List.count_replicate
      · exact Nat.zero_le _
      · rfl
  | closeBlock levels =>
      simp only [perform] at accepted
      split at accepted
      · rename_i within
        cases accepted
        have plain : Plain [.lineEnd, .indent (before.columns * (before.depth - levels))] := by
          simp [Plain, isBraces]
        constructor
        · refine (plain.count_append rfl).trans ?_
          rw [marked_closeBraces]
          exact List.count_replicate
        · refine (plain.count_append rfl).trans ?_
          rw [marked_closeBraces]
          exact List.count_replicate_self
        · exact within
        · exact Nat.sub_add_cancel within
      · cases accepted

end Writer

namespace Sheet

/-- The writer knows how many of the braces on the sheet are open, and nowhere on the sheet have
more been closed than opened. -/
structure Balanced (sheet : Sheet) : Prop where
  depth : sheet.writer.depth + (marked sheet.written).count closing =
    (marked sheet.written).count opening
  covered : ∀ start, start <+: marked sheet.written → start.count closing ≤ start.count opening

theorem balanced_fresh (columns : Nat) : (fresh columns).Balanced where
  depth := rfl
  covered := by
    intro start before
    rw [List.prefix_nil.mp before]
    exact Nat.le_refl 0

/-- An operation closes no more braces than are open. -/
theorem Balanced.behind {sheet : Sheet} (balanced : sheet.Balanced) (operation : Operation) :
    (sheet.behind operation).Balanced := by
  rcases sheet.behind_cases operation with ⟨pieces, next, accepted, -, equal⟩ | ⟨_, -, -, equal⟩
  · have braces := Writer.braces_of_perform accepted
    obtain ⟨opened, closed, within, depth⟩ := braces
    have whole := balanced.depth
    rw [equal]
    constructor
    · rw [marked_append, List.count_append, List.count_append, opened, closed]
      dsimp only
      omega
    · intro start before
      rw [marked_append] at before
      rcases List.prefix_or_prefix_of_prefix before (List.prefix_append _ _) with earlier | beyond
      · exact balanced.covered start earlier
      · obtain ⟨rest, rfl⟩ := beyond
        have part := (List.prefix_append_right_inj _).mp before
        have few := part.sublist.count_le closing
        rw [List.count_append, List.count_append]
        omega
  · rw [equal]
    exact balanced

theorem Balanced.after {sheet : Sheet} (balanced : sheet.Balanced) (operations : List Operation) :
    (sheet.after operations).Balanced := by
  induction operations generalizing sheet with
  | nil => exact balanced
  | cons operation later ih => exact ih (balanced.behind operation)

/-- The operations of a run that are not refused add up to the depth. -/
theorem depth_after (sheet : Sheet) (operations : List Operation) :
    (sheet.after operations).writer.depth +
        ((sheet.accepted operations).map Operation.closes).sum =
      sheet.writer.depth + ((sheet.accepted operations).map Operation.opens).sum := by
  induction operations generalizing sheet with
  | nil => rfl
  | cons operation later ih =>
      have rest := ih (sheet.behind operation)
      change ((sheet.behind operation).after later).writer.depth + _ = _
      rw [accepted]
      rcases sheet.behind_cases operation with
        ⟨pieces, next, ended, went, equal⟩ | ⟨_, -, went, equal⟩
      · have depth := (Writer.braces_of_perform ended).depth
        rw [if_pos went, List.map_cons, List.map_cons, List.sum_cons, List.sum_cons]
        rw [equal] at rest ⊢
        dsimp only at rest
        omega
      · rw [if_neg (by simp [went]), equal]
        rw [equal] at rest
        exact rest

/-- An operation is refused if and only if it is to close more levels than are open, and then the
sheet stays as it is. -/
structure RefusedExactly (sheet : Sheet) (operation : Operation) : Prop where
  iff : (∃ fault left, Writing.operate operation sheet = .error fault left) ↔
    ∃ levels, operation = .closeBlock levels ∧ sheet.writer.depth < levels
  unchanged : ∀ fault left, Writing.operate operation sheet = .error fault left → left = sheet

theorem refusedExactly (sheet : Sheet) (operation : Operation) :
    sheet.RefusedExactly operation := by
  constructor
  · rw [operate_eq]
    cases operation with
    | closeBlock levels =>
        by_cases opened : levels ≤ sheet.writer.depth
        · simp [Writer.perform, opened]
        · simp [Writer.perform, opened, Nat.not_le.mp opened]
    | _ => simp [Writer.perform]
  · intro fault left ended
    rw [operate_eq] at ended
    cases performed : sheet.writer.perform operation with
    | ok next =>
        rw [performed] at ended
        cases ended
    | error fault =>
        rw [performed] at ended
        cases ended
        rfl

end Sheet

open Sheet

/-- The braces that a run writes on a fresh sheet, and the operations that it refuses. -/
structure BracesExact (columns : Nat) (operations : List Operation) (sheet : Sheet) : Prop where
  /-- On the sheet stands what the run writes. -/
  run : sheet = ⟨((Writer.fresh columns).run operations).2,
    ((Writer.fresh columns).run operations).1⟩
  text : (marked sheet.written).map Prod.fst = (joined sheet.written).toList
  /-- The depth is what has been opened less what has been closed. -/
  depth : sheet.writer.depth +
      (((fresh columns).accepted operations).map Operation.closes).sum =
    (((fresh columns).accepted operations).map Operation.opens).sum
  balanced : sheet.Balanced
  refused : ∀ before operation after, operations = before ++ operation :: after →
    ((fresh columns).after before).RefusedExactly operation
  /-- All others end as they would if the refused operations had not been asked for. -/
  skipped : (fresh columns).outcomes ((fresh columns).accepted operations) =
    ((fresh columns).outcomes operations).filter succeeded

/-- In whatever order operations come, the depth is that of the braces that are written, and what
is refused leaves no trace. -/
theorem braces_exact (columns : Nat) (operations : List Operation) :
    BracesExact columns operations ((fresh columns).after operations) where
  run := (fresh columns).after_eq operations
  text := map_fst_marked _
  depth := by
    have whole := (fresh columns).depth_after operations
    rwa [fresh, Writer.fresh, Nat.zero_add] at whole
  balanced := (balanced_fresh columns).after operations
  refused := fun before operation _ _ => ((fresh columns).after before).refusedExactly operation
  skipped := (fresh columns).outcomes_accepted operations

/-- Two levels are closed one after the other, and a third one is refused. -/
example : (fresh 3).accepted [.closeBlock 1, .openBlock none 2, .closeBlock 3, .line "1",
    .closeBlock 1, .closeBlock 1, .closeBlock 1] =
      [.openBlock none 2, .line "1", .closeBlock 1, .closeBlock 1] := by
  decide

end BusTables.Initializer
