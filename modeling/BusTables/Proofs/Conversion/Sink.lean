import BusTables.Proofs.Conversion.Capacity
import BusTables.Proofs.Initializer.Agreement

/-!
# Writing call by call

The writer reaches a sink by many calls: each level of an indentation is a call, and each part of
a line.  A sink takes of a call what fits, and a call of which it does not take all fails and ends
everything.  Two calls do the same as one call with the bytes of both (`put_append`).  So what is
written for an item is written as if by one call, however deep its blocks are (`sends_item`).
-/

namespace BusTables

/-- The room of a sink, and what was reported and written so far. -/
structure Sink where
  room : Capacity
  messages : List Message
  written : List UInt8

/-- The sink after a call with some bytes. -/
def Sink.taking (sink : Sink) (bytes : List UInt8) : Sink where
  room := sink.room.without bytes
  messages := sink.messages
  written := sink.written ++ sink.room.accepted bytes

theorem Sink.taking_append (sink : Sink) (first later : List UInt8) :
    sink.taking (first ++ later) = (sink.taking first).taking later := by
  simp [taking, Capacity.without_append, Capacity.accepted_append]

/-- A full sink takes nothing more. -/
theorem Sink.taking_of_full {sink : Sink} (full : sink.room = some 0) (bytes : List UInt8) :
    sink.taking bytes = sink := by
  obtain ⟨room, messages, written⟩ := sink
  dsimp only at full
  subst full
  simp [taking, Capacity.without]

/-- A computation that writes to a sink and ends at the first failure. -/
abbrev Sending := EStateM Failure Sink

namespace Sending

variable {α β : Type}

/-- A message is reported. -/
def report (message : Message) : Sending Unit := fun sink =>
  .ok () { sink with messages := sink.messages ++ [message] }

/-- A single call. -/
def put (bytes : List UInt8) : Sending Unit := fun sink =>
  if sink.room.holds bytes then .ok () (sink.taking bytes)
  else .error (.device .full) (sink.taking bytes)

/-- A call with the bytes of a text. -/
def write (text : String) : Sending Unit := put (Text.bytes text)

theorem put_nil : put [] = pure () := by
  funext sink
  obtain ⟨room, messages, written⟩ := sink
  cases room <;> simp [put, Sink.taking, Capacity.holds, Capacity.without, Capacity.accepted,
    pure, EStateM.pure]

/-- Two calls do the same as one call with the bytes of both. -/
theorem put_append (first later : List UInt8) :
    put (first ++ later) = put first >>= fun _ => put later := by
  funext sink
  change _ = EStateM.bind (put first) (fun _ => put later) sink
  unfold EStateM.bind put
  rw [Capacity.holds_append, Sink.taking_append]
  cases fits : sink.room.holds first with
  | true => rfl
  | false =>
      -- The first call fails and leaves no room, so the later bytes would leave no trace.
      have full : (sink.taking first).room = some 0 := Capacity.without_of_not_holds fits
      rw [Sink.taking_of_full full]
      rfl

theorem write_append (first later : String) :
    write (first ++ later) = write first >>= fun _ => write later := by
  rw [write, Text.bytes_append, put_append]
  rfl

/-- A computation writes a text as if by one call, and then ends with a value. -/
def Sends (sending : Sending α) (text : String) (value : α) : Prop :=
  sending = do
    write text
    return value

namespace Sends

theorem silent (value : α) : Sends (pure value) "" value := by
  change _ = put [] >>= _
  rw [put_nil, pure_bind]

theorem call (text : String) : Sends (write text) text () :=
  (bind_pure (write text)).symm

/-- A text is written behind another one. -/
theorem bind {sending : Sending α} {next : α → Sending β} {text later : String} {value : α}
    {last : β} (first : Sends sending text value) (rest : Sends (next value) later last) :
    Sends (sending >>= next) (text ++ later) last := by
  unfold Sends at first rest ⊢
  rw [first, write_append, bind_assoc, bind_assoc]
  refine congrArg _ (funext fun _ => ?_)
  rw [pure_bind, rest]

theorem follow {sending : Sending Unit} {next : Sending β} {text later : String} {last : β}
    (first : Sends sending text ()) (rest : Sends next later last) :
    Sends (sending >>= fun _ => next) (text ++ later) last :=
  first.bind rest

theorem of_eq {sending : Sending α} {text other : String} {value : α}
    (sends : Sends sending text value) (same : text = other) : Sends sending other value :=
  same ▸ sends

theorem forM (texts : List String) : Sends (texts.forM write) (String.join texts) () := by
  induction texts with
  | nil => exact silent ()
  | cons text later ih =>
      rw [String.join_cons]
      exact (call text).bind ih

end Sends

end Sending

namespace Initializer

open Sending

namespace Writer

variable (writer : Writer)

/-- The end of the current line, with the separator that is due. -/
def sendLineBreak : Sending Writer := do
  write (if writer.pending then if 0 < writer.depth then ",\n" else ";\n\n" else "\n")
  return writer.settle false

/-- The indentation of a line, level by level. -/
def sendIndentation : Sending Unit :=
  (List.replicate writer.depth (repeated writer.columns ' ')).forM write

/-- The lines of a comment, each on a line of its own. -/
def sendComment (writer : Writer) : List String → Sending Writer
  | [] => return writer
  | line :: later => do
      let next ← writer.sendLineBreak
      next.sendIndentation
      write "// "
      write line
      next.sendComment later

/-- A line for the preprocessor with its end. -/
def sendMarked (text : String) (writer : Writer) : Sending Writer := do
  write "#"
  write text
  write "\n"
  return writer

/-- An operation, call by call; one that is refused fails without a call. -/
def send : Operation → Sending Writer
  | .newline => writer.sendLineBreak
  | .directive text =>
      if writer.pending then writer.sendLineBreak >>= sendMarked text else sendMarked text writer
  | .line text => do
      let next ← writer.sendLineBreak
      next.sendIndentation
      write text
      return next.settle (!text.isEmpty)
  | .comment text => writer.sendComment (commentLines text)
  | .openBlock header levels => do
      let next ← writer.sendLineBreak
      next.sendIndentation
      if let some text := header then
        write text
        write " = "
      write (repeated levels '\x7b')
      return { next with depth := next.depth + levels }
  | .closeBlock levels =>
      if levels ≤ writer.depth then do
        let outer := { writer with depth := writer.depth - levels, pending := true }
        write "\n"
        outer.sendIndentation
        write (repeated levels '\x7d')
        return outer
      else throw (.device .unopenedBrace)

theorem sends_lineBreak :
    Sends writer.sendLineBreak (Piece.joined writer.lineBreak) (writer.settle false) := by
  unfold sendLineBreak lineBreak
  split
  · split <;> rfl
  · rfl

theorem join_replicate (depth columns : Nat) :
    String.join (List.replicate depth (repeated columns ' ')) =
      repeated (columns * depth) ' ' := by
  rw [← String.toList_inj, String.toList_join]
  simp [repeated, List.flatMap, Nat.mul_comm]

theorem sends_indentation :
    Sends writer.sendIndentation writer.indentation.text () := by
  have levels := Sends.forM (List.replicate writer.depth (repeated writer.columns ' '))
  rw [join_replicate] at levels
  exact levels

theorem sends_comment (writer : Writer) (lines : List String) :
    Sends (writer.sendComment lines) (Piece.joined (writer.writeComment lines).1)
      (writer.writeComment lines).2 := by
  induction lines generalizing writer with
  | nil => exact .silent writer
  | cons line later ih =>
      have rest := (Sends.call "// ").follow ((Sends.call line).follow (ih (writer.settle false)))
      have indented := (writer.settle false).sends_indentation.follow rest
      have whole : Sends (writer.sendComment (line :: later)) _ _ :=
        writer.sends_lineBreak.bind indented
      refine whole.of_eq ?_
      simp [writeComment, Piece.text, indentation, settle, String.append_assoc]

/-- The calls for an operation are as good as one call with all that the operation writes. -/
theorem sends_of_perform {writer next : Writer} {operation : Operation} {pieces : List Piece}
    (accepted : writer.perform operation = .ok (pieces, next)) :
    Sends (writer.send operation) (Piece.joined pieces) next := by
  have broken := writer.sends_lineBreak
  have indented := (writer.settle false).sends_indentation
  cases operation with
  | newline =>
      cases accepted
      exact broken
  | directive text =>
      have marked (last : Writer) : Sends (sendMarked text last) _ last := (Sends.call "#").follow
        ((Sends.call text).follow ((Sends.call "\n").follow (.silent last)))
      cases accepted
      cases due : writer.pending with
      | true =>
          rw [send, if_pos due]
          refine (broken.bind (marked _)).of_eq ?_
          simp [Piece.text, String.append_assoc]
      | false =>
          rw [send, if_neg (by simp [due])]
          have settled : writer.settle false = writer := by rw [settle, ← due]
          rw [settled]
          refine (marked writer).of_eq ?_
          simp [Piece.text, String.append_assoc]
  | line text =>
      cases accepted
      have rest := (Sends.call text).follow (Sends.silent (writer.settle (!text.isEmpty)))
      have whole : Sends (writer.send (.line text)) _ _ := broken.bind (indented.follow rest)
      refine whole.of_eq ?_
      simp [Piece.text, indentation, settle]
  | comment text =>
      have written := writer.sends_comment (commentLines text)
      rwa [Except.ok.inj accepted] at written
  | openBlock header levels =>
      cases accepted
      have rest := (Sends.call (repeated levels '\x7b')).follow
        (Sends.silent { writer with depth := writer.depth + levels, pending := false })
      cases header with
      | none =>
          have whole : Sends (writer.send (.openBlock none levels)) _ _ :=
            broken.bind (indented.follow rest)
          refine whole.of_eq ?_
          simp [Piece.text, indentation, settle]
      | some text =>
          have whole : Sends (writer.send (.openBlock (some text) levels)) _ _ :=
            broken.bind (indented.follow
              ((Sends.call text).follow ((Sends.call " = ").follow rest)))
          refine whole.of_eq ?_
          simp [Piece.text, indentation, settle, String.append_assoc]
  | closeBlock levels =>
      simp only [perform] at accepted
      split at accepted
      · rename_i opened
        cases accepted
        let outer : Writer := { writer with depth := writer.depth - levels, pending := true }
        have rest := (Sends.call (repeated levels '\x7d')).follow (.silent outer)
        rw [send, if_pos opened]
        have whole := (Sends.call "\n").follow (outer.sends_indentation.follow rest)
        refine whole.of_eq ?_
        simp [Piece.text, outer]
      · cases accepted

end Writer

/-- Operations that are accepted are written in turn. -/
theorem Performs.sends {writer last : Writer} {operations : List Operation} {pieces : List Piece}
    (performed : Performs writer operations pieces last) :
    Sends (operations.foldlM Writer.send writer) (Piece.joined pieces) last := by
  induction performed with
  | nil writer => exact .silent writer
  | cons accepted _ ih =>
      rw [List.foldlM_cons, Piece.joined_append]
      exact (Writer.sends_of_perform accepted).bind ih

mutual

/-- An item, its blocks from the outermost to the innermost. -/
def Item.send (writer : Writer) : Item → Sending Writer
  | .value text => writer.send (.line text)
  | .comment text => writer.send (.comment text)
  | .block header items => do
      let inner ← writer.send (.openBlock header 1)
      let last ← Item.sendAll inner items
      last.send (.closeBlock 1)

/-- Items, one after the other. -/
def Item.sendAll (writer : Writer) : List Item → Sending Writer
  | [] => return writer
  | item :: later => do
      let next ← item.send writer
      Item.sendAll next later

end

mutual

theorem Item.send_eq (writer : Writer) (item : Item) :
    item.send writer = item.operations.foldlM Writer.send writer := by
  match item with
  | .value text => exact (bind_pure _).symm
  | .comment text => exact (bind_pure _).symm
  | .block header items =>
      rw [Item.send, Item.operations, List.foldlM_cons]
      refine congrArg _ (funext fun inner => ?_)
      rw [List.foldlM_append, Item.sendAll_eq inner items]
      exact congrArg _ (funext fun last => (bind_pure _).symm)

theorem Item.sendAll_eq (writer : Writer) (items : List Item) :
    Item.sendAll writer items = (Item.allOperations items).foldlM Writer.send writer := by
  match items with
  | [] => rfl
  | item :: later =>
      rw [Item.sendAll, Item.allOperations, List.foldlM_append, Item.send_eq writer item]
      exact congrArg _ (funext fun next => Item.sendAll_eq next later)

end

/-- An item is written as if by one call. -/
theorem sends_item (writer : Writer) (item : Item) :
    Sends (item.send writer) (Piece.joined (writer.run item.operations).1)
      (writer.run item.operations).2 := by
  obtain ⟨pieces, pending, performed⟩ := writer.performs_item item
  rw [item.send_eq writer, performed.run_eq]
  exact performed.sends

end Initializer

end BusTables
