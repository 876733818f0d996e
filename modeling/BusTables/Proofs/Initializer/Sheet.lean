import BusTables.Initializer.Writer

/-!
# Writing effect by effect

A writer can be kept with what it has written on a sheet.  An operation then is a sequence of
effects: each puts one more piece on the sheet or changes the writer.  An operation that fails in
the middle would leave behind what it has done until then.  No operation does: it has all the
effects that `Writer.perform` tells, or it is refused before the first one (`operate_eq`).
-/

namespace BusTables.Initializer

/-- A writer, and what it has written so far. -/
structure Sheet where
  writer : Writer
  written : List Piece
  deriving DecidableEq, Repr

/-- A computation on a sheet.  What it did before a failure is not undone. -/
abbrev Writing := EStateM DeviceFault Sheet

namespace Writing

/-- One more piece is put on the sheet. -/
def put (piece : Piece) : Writing Unit :=
  modify fun sheet => { sheet with written := sheet.written ++ [piece] }

/-- The writer on the sheet is changed. -/
def change (alter : Writer → Writer) : Writing Unit :=
  modify fun sheet => { sheet with writer := alter sheet.writer }

/-- The writer on the sheet. -/
def writer : Writing Writer := do return (← get).writer

/-- The end of the current line, with the separator that is due. -/
def newline : Writing Unit := do
  let before ← writer
  if before.pending then
    if 0 < before.depth then
      put .comma
      put .lineEnd
    else
      put .semicolon
      put .lineEnd
      put .lineEnd
  else
    put .lineEnd
  change (·.settle false)

/-- The indentation of a line. -/
def indent : Writing Unit := do put (← writer).indentation

/-- An operation, effect by effect. -/
def operate : Operation → Writing Unit
  | .newline => newline
  | .directive text => do
      if (← writer).pending then newline
      put (.directive text)
      put .lineEnd
  | .line text => do
      newline
      indent
      put (.line text)
      change (·.settle (!text.isEmpty))
  | .comment text => (commentLines text).forM fun line => do
      newline
      indent
      put (.comment line)
  | .openBlock header levels => do
      newline
      indent
      (header.map Piece.header).toList.forM put
      put (.openBraces levels)
      change fun before => { before with depth := before.depth + levels }
      change (·.settle false)
  | .closeBlock levels => do
      if (← writer).depth < levels then throw .unopenedBrace
      change fun before => { before with depth := before.depth - levels }
      put .lineEnd
      indent
      put (.closeBraces levels)
      change (·.settle true)

/-- With a writer, a computation puts pieces on the sheet, ends with a value and leaves another
writer behind. -/
def Does {α : Type} (writing : Writing α) (before : Writer) (pieces : List Piece) (value : α)
    (after : Writer) : Prop :=
  ∀ written, writing ⟨before, written⟩ = .ok value ⟨after, written ++ pieces⟩

namespace Does

variable {α β : Type} {before between after : Writer} {pieces more : List Piece}

theorem bind {writing : Writing α} {next : α → Writing β} {value : α} {last : β}
    (first : Does writing before pieces value between)
    (rest : Does (next value) between more last after) :
    Does (writing >>= next) before (pieces ++ more) last after := by
  intro written
  change EStateM.bind writing next _ = _
  rw [EStateM.bind, first written]
  change next value ⟨between, written ++ pieces⟩ = _
  rw [rest (written ++ pieces), List.append_assoc]

theorem follow {writing : Writing Unit} {next : Writing β} {last : β}
    (first : Does writing before pieces () between) (rest : Does next between more last after) :
    Does (writing >>= fun _ => next) before (pieces ++ more) last after :=
  first.bind rest

theorem nothing (value : α) (before : Writer) : Does (pure value) before [] value before := by
  intro written
  rw [List.append_nil]
  rfl

theorem of_eq {writing : Writing α} {value : α} (does : Does writing before pieces value after)
    (same : pieces = more) : Does writing before more value after :=
  same ▸ does

theorem put (piece : Piece) (before : Writer) :
    Does (Writing.put piece) before [piece] () before :=
  fun _ => rfl

theorem change (alter : Writer → Writer) (before : Writer) :
    Does (Writing.change alter) before [] () (alter before) := by
  intro written
  rw [List.append_nil]
  rfl

theorem writer (before : Writer) : Does Writing.writer before [] before before := by
  intro written
  rw [List.append_nil]
  rfl

theorem newline (before : Writer) :
    Does Writing.newline before before.lineBreak () (before.settle false) := by
  have settled := change (·.settle false) before
  have broken : Does (Writing.newline) before ([] ++ (before.lineBreak ++ [])) ()
      (before.settle false) := by
    refine (writer before).bind ?_
    rw [Writer.lineBreak]
    split
    · split
      · exact ((put .comma before).follow (put .lineEnd before)).follow settled
      · exact ((put .semicolon before).follow
          ((put .lineEnd before).follow (put .lineEnd before))).follow settled
    · exact (put .lineEnd before).follow settled
  simpa using broken

theorem indent (before : Writer) : Does Writing.indent before [before.indentation] () before :=
  (writer before).bind (put before.indentation before)

theorem forM {α : Type} {step : α → Writing Unit} {wrote : α → List Piece}
    (each : ∀ item, Does (step item) before (wrote item) () before) (items : List α) :
    Does (items.forM step) before (items.flatMap wrote) () before := by
  induction items with
  | nil => exact nothing () before
  | cons item later ih => exact (each item).follow ih

theorem comment (lines : List String) (before : Writer) :
    Does (lines.forM fun line => do
      Writing.newline
      Writing.indent
      Writing.put (.comment line)) before (before.writeComment lines).1 ()
      (before.writeComment lines).2 := by
  induction lines generalizing before with
  | nil => exact nothing () before
  | cons line later ih =>
      have line := (newline before).follow
        ((indent (before.settle false)).follow (put (.comment line) (before.settle false)))
      exact line.follow (ih (before.settle false))

end Does

/-- An operation that is not refused has the effects that it is said to have. -/
theorem operate_of_accepted {before after : Writer} {operation : Operation} {pieces : List Piece}
    (accepted : before.perform operation = .ok (pieces, after)) :
    Does (operate operation) before pieces () after := by
  have broken := Does.newline before
  have indented := Does.indent (before.settle false)
  cases operation with
  | newline =>
      cases accepted
      exact broken
  | directive text =>
      have marked (last : Writer) :=
        (Does.put (.directive text) last).follow (Does.put .lineEnd last)
      cases accepted
      refine (Does.writer before).bind ?_
      cases due : before.pending with
      | true => exact broken.follow (marked _)
      | false =>
          have settled : before.settle false = before := by rw [Writer.settle, ← due]
          rw [settled]
          exact marked before
  | line text =>
      cases accepted
      have written := (Does.put (.line text) (before.settle false)).follow
        (Does.change (·.settle (!text.isEmpty)) (before.settle false))
      exact broken.follow (indented.follow written)
  | comment text =>
      have written := Does.comment (commentLines text) before
      rwa [Except.ok.inj accepted] at written
  | openBlock header levels =>
      cases accepted
      have named := Does.forM (fun piece => Does.put piece (before.settle false))
        (header.map Piece.header).toList
      have opened := Does.put (.openBraces levels) (before.settle false)
      have deeper := Does.change (fun outer => { outer with depth := outer.depth + levels })
        (before.settle false)
      have settled := Does.change (·.settle false)
        { before with depth := before.depth + levels, pending := false }
      have whole : Does (operate (.openBlock header levels)) before _ () _ :=
        broken.follow (indented.follow
          (named.follow (opened.follow (deeper.follow settled))))
      refine whole.of_eq ?_
      simp [Writer.indentation, Writer.settle]
  | closeBlock levels =>
      simp only [Writer.perform] at accepted
      split at accepted
      · rename_i opened
        cases accepted
        have kept : ¬before.depth < levels := Nat.not_lt.mpr opened
        let outer : Writer := { before with depth := before.depth - levels }
        have lowered := Does.change (fun inner => { inner with depth := before.depth - levels })
          before
        have closed := (Does.put (.closeBraces levels) outer).follow
          (Does.change (·.settle true) outer)
        have whole := lowered.follow
          ((Does.put .lineEnd outer).follow ((Does.indent outer).follow closed))
        refine ((Does.writer before).bind ?_).of_eq (List.nil_append _)
        rw [if_neg kept]
        exact whole
      · cases accepted

/-- An operation that is refused has no effect. -/
theorem operate_of_refused {before : Writer} {operation : Operation} {fault : DeviceFault}
    (refused : before.perform operation = .error fault) (written : List Piece) :
    operate operation ⟨before, written⟩ = .error fault ⟨before, written⟩ := by
  cases operation with
  | closeBlock levels =>
      simp only [Writer.perform] at refused
      split at refused
      · cases refused
      · rename_i unopened
        cases refused
        have short : before.depth < levels := Nat.not_le.mp unopened
        change (if before.depth < levels then _ else _ : Writing Unit) ⟨before, written⟩ = _
        rw [if_pos short]
        rfl
  | _ => cases refused

end Writing

/-- A computation on a sheet has ended without a failure. -/
def succeeded : EStateM.Result DeviceFault Sheet Unit → Bool
  | .ok _ _ => true
  | .error _ _ => false

/-- The sheet that a computation leaves behind, whether or not it has failed. -/
def leftBehind : EStateM.Result DeviceFault Sheet Unit → Sheet
  | .ok _ sheet => sheet
  | .error _ sheet => sheet

namespace Sheet

/-- A sheet with nothing on it. -/
def fresh (columns : Nat) : Sheet := ⟨.fresh columns, []⟩

/-- The sheet behind an operation. -/
def behind (sheet : Sheet) (operation : Operation) : Sheet :=
  leftBehind (Writing.operate operation sheet)

/-- The sheet behind operations; the run goes on when one is refused. -/
def after (sheet : Sheet) (operations : List Operation) : Sheet := operations.foldl behind sheet

/-- What each operation of a run ends with. -/
def outcomes (sheet : Sheet) : List Operation → List (EStateM.Result DeviceFault Sheet Unit)
  | [] => []
  | operation :: later =>
      Writing.operate operation sheet :: (sheet.behind operation).outcomes later

/-- The operations of a run that are not refused. -/
def accepted (sheet : Sheet) : List Operation → List Operation
  | [] => []
  | operation :: later =>
      if succeeded (Writing.operate operation sheet) then
        operation :: (sheet.behind operation).accepted later
      else (sheet.behind operation).accepted later

/-- An operation has all its effects, or it is refused and has none. -/
theorem operate_eq (sheet : Sheet) (operation : Operation) :
    Writing.operate operation sheet =
      match sheet.writer.perform operation with
      | .ok (pieces, next) => .ok () ⟨next, sheet.written ++ pieces⟩
      | .error fault => .error fault sheet := by
  cases ended : sheet.writer.perform operation with
  | ok next => exact Writing.operate_of_accepted ended sheet.written
  | error fault => exact Writing.operate_of_refused ended sheet.written

/-- What an operation leaves behind: all that it writes, or the sheet as it was. -/
theorem behind_cases (sheet : Sheet) (operation : Operation) :
    (∃ pieces next, sheet.writer.perform operation = .ok (pieces, next) ∧
        succeeded (Writing.operate operation sheet) = true ∧
        sheet.behind operation = ⟨next, sheet.written ++ pieces⟩) ∨
      ∃ fault, sheet.writer.perform operation = .error fault ∧
        succeeded (Writing.operate operation sheet) = false ∧ sheet.behind operation = sheet := by
  rw [behind, operate_eq]
  cases sheet.writer.perform operation with
  | ok next => exact .inl ⟨next.1, next.2, rfl, rfl, rfl⟩
  | error fault => exact .inr ⟨fault, rfl, rfl, rfl⟩

/-- A run on a sheet writes what the run of the writer writes. -/
theorem after_eq (sheet : Sheet) (operations : List Operation) :
    sheet.after operations =
      ⟨(sheet.writer.run operations).2, sheet.written ++ (sheet.writer.run operations).1⟩ := by
  induction operations generalizing sheet with
  | nil => rw [Writer.run_nil, List.append_nil]; rfl
  | cons operation later ih =>
      change (sheet.behind operation).after later = _
      rw [ih, Writer.run_cons, Writer.attempt]
      rcases sheet.behind_cases operation with
        ⟨pieces, next, ended, -, equal⟩ | ⟨_, ended, -, equal⟩
      · rw [equal, ended, List.append_assoc]
      · rw [equal, ended, List.nil_append]

/-- Without the operations that are refused, the others end with the same, one by one. -/
theorem outcomes_accepted (sheet : Sheet) (operations : List Operation) :
    sheet.outcomes (sheet.accepted operations) =
      (sheet.outcomes operations).filter succeeded := by
  induction operations generalizing sheet with
  | nil => rfl
  | cons operation later ih =>
      rw [accepted, outcomes, List.filter_cons]
      rcases sheet.behind_cases operation with ⟨_, _, -, went, -⟩ | ⟨_, -, went, equal⟩
      · rw [if_pos went, if_pos went, outcomes, ih]
      · rw [if_neg (by simp [went]), if_neg (by simp [went]), equal, ih]

end Sheet

end BusTables.Initializer
