import BusTables.Proofs.Conversion.Complete
import BusTables.Proofs.Conversion.Sink

/-!
# A conversion is cut at the end of the room

A conversion that writes call by call, and ends at the first call that fails, does what `convert`
does (`convert_eq_process`).  So wherever the room of the sink ends, be it within an indentation
or within a separator, the sink holds the text as far as the room goes, and a document that is
refused leaves the sink empty (`convert_cut_exactly`).
-/

namespace BusTables

open Initializer Sending

/-- A step, reported and then written call by call. -/
def Step.send (writer : Writer) (step : Step) : Sending Writer := do
  report step.message
  match step with
  | .pass _ => return writer
  | .declare declaration => declaration.item.send writer

/-- A part is reported, or written by one call. -/
def Part.send : Part → Sending Unit
  | .note message => report message
  | .portion text => write text

theorem Step.sends (writer : Writer) (step : Step) :
    step.send writer = do
      report step.message
      write (Piece.joined (writer.run step.operations).1)
      return (writer.run step.operations).2 := by
  refine congrArg _ (funext fun _ => ?_)
  cases step with
  | pass address => exact Sends.silent writer
  | declare declaration => exact sends_item writer declaration.item

namespace Emission

/-- The text for a configuration, call by call. -/
def send (header : String) (configuration : Configuration) : Sending Unit := do
  let first ← (Writer.fresh columns).send (inclusion header)
  let last ← configuration.plan.foldlM Step.send first
  let _ ← last.send .newline
  return ()

theorem sends_steps (writer : Writer) (steps : List Step) :
    (do
      let last ← steps.foldlM Step.send writer
      let _ ← last.send .newline
      return ()) = (stepParts writer steps).forM Part.send := by
  induction steps generalizing writer with
  | nil =>
      have ended : writer.perform .newline = .ok (writer.lineBreak, writer.settle false) := rfl
      have last : Sends (writer.send .newline >>= fun _ => pure ()) _ () :=
        (Writer.sends_of_perform ended).bind (.silent ())
      rw [stepParts, (Performs.single ended).run_eq]
      exact last.of_eq String.append_empty
  | cons step later ih =>
      rw [List.foldlM_cons, Step.sends]
      simp only [bind_assoc, pure_bind]
      exact congrArg _ (funext fun _ => congrArg _ (funext fun _ => ih _))

/-- Whatever the calls are, the parts are written. -/
theorem send_eq (header : String) (configuration : Configuration) :
    send header configuration = (parts header configuration).forM Part.send := by
  have included : (Writer.fresh columns).perform (inclusion header) =
      .ok ([.directive ("include \"" ++ header ++ "\""), .lineEnd], .fresh columns) :=
    rfl
  have first : (Writer.fresh columns).send (inclusion header) = _ :=
    Writer.sends_of_perform included
  rw [send, first, parts, (Performs.single included).run_eq]
  simp only [bind_assoc, pure_bind]
  exact congrArg _ (funext fun _ => sends_steps (.fresh columns) configuration.plan)

end Emission

namespace Sending

/-- What was reported and written, and how it ended. -/
def outcome : EStateM.Result Failure Sink Unit → Delivery
  | .ok _ sink => ⟨sink.messages, sink.written, .ok ()⟩
  | .error failure sink => ⟨sink.messages, sink.written, .error failure⟩

/-- The delivery to a sink that has taken nothing yet. -/
def delivery (sending : Sending Unit) (capacity : Capacity) : Delivery :=
  outcome (sending ⟨capacity, [], []⟩)

theorem outcome_parts (parts : List Part) (sink : Sink) :
    outcome (parts.forM Part.send sink) =
      (deliver sink.room parts).after sink.messages sink.written := by
  induction parts generalizing sink with
  | nil => simp [deliver, Delivery.after, outcome, pure, EStateM.pure]
  | cons part later ih =>
      cases part with
      | note message =>
          have rest := ih { sink with messages := sink.messages ++ [message] }
          change outcome (later.forM Part.send _) = _
          rw [deliver]
          simpa [Delivery.after] using rest
      | portion text =>
          have rest := ih (sink.taking (Text.bytes text))
          change outcome (EStateM.bind (put (Text.bytes text)) _ sink) = _
          unfold EStateM.bind put
          rw [deliver]
          cases fits : sink.room.holds (Text.bytes text) with
          | true =>
              change outcome (later.forM Part.send (sink.taking (Text.bytes text))) = _
              rw [rest]
              simp [Delivery.after, Sink.taking, Capacity.accepted_of_holds fits]
          | false => simp [Delivery.after, Delivery.cut, outcome, Sink.taking]

/-- A traced computation reports what it reports, and fails where it fails. -/
def ofTraced {α : Type} (traced : Traced α) : Sending α := do
  traced.messages.forM report
  match traced.result with
  | .ok value => return value
  | .error failure => throw failure

theorem ofTraced_apply {α : Type} (traced : Traced α) (sink : Sink) :
    ofTraced traced sink =
      match traced.result with
      | .ok value => .ok value { sink with messages := sink.messages ++ traced.messages }
      | .error failure =>
          .error failure { sink with messages := sink.messages ++ traced.messages } := by
  obtain ⟨messages, result⟩ := traced
  have reported (messages : List Message) (sink : Sink) : messages.forM report sink =
      .ok () { sink with messages := sink.messages ++ messages } := by
    induction messages generalizing sink with
    | nil => simp [pure, EStateM.pure]
    | cons message later ih =>
        change later.forM report { sink with messages := sink.messages ++ [message] } = _
        rw [ih]
        simp
  change EStateM.bind (messages.forM report) _ sink = _
  unfold EStateM.bind
  rw [reported]
  cases result <;> rfl

end Sending

/-- A conversion, call by call: the document is read, and then its tables are written. -/
def process (parser : Xml.Parser) (header : String) (content : List UInt8) : Sending Unit := do
  let configuration ← ofTraced (Configuration.buildFromContent parser content)
  Emission.send header configuration

section Outcomes

variable {parser : Xml.Parser} {header : String} {capacity : Capacity} {content : List UInt8}

theorem convert_of_error {failure : Failure}
    (refused : (Configuration.buildFromContent parser content).result = .error failure) :
    convert parser header capacity content =
      ⟨(Configuration.buildFromContent parser content).messages, [], .error failure⟩ := by
  simp [convert, refused]

theorem convert_of_ok {configuration : Configuration}
    (built : (Configuration.buildFromContent parser content).result = .ok configuration) :
    convert parser header capacity content =
      (deliver capacity (Emission.parts header configuration)).after
        (Configuration.buildFromContent parser content).messages [] := by
  simp [convert, built]

end Outcomes

theorem convert_eq_process (parser : Xml.Parser) (header : String) (capacity : Capacity)
    (content : List UInt8) :
    convert parser header capacity content =
      (process parser header content).delivery capacity := by
  unfold delivery
  change _ = outcome (EStateM.bind (ofTraced (Configuration.buildFromContent parser content)) _ _)
  unfold EStateM.bind
  rw [ofTraced_apply]
  cases ended : (Configuration.buildFromContent parser content).result with
  | error failure => exact convert_of_error ended
  | ok configuration =>
      dsimp only
      rw [Emission.send_eq, outcome_parts]
      exact convert_of_ok ended

/-- A text that is delivered to sinks of any room ends where the room ends. -/
structure Cut (delivery : Capacity → Delivery) (whole : List UInt8) : Prop where
  unbounded : (delivery none).result = .ok () ∧ (delivery none).written = whole
  succeeds : ∀ room, (delivery (some room)).result = .ok () ↔ whole.length ≤ room
  fitting : ∀ room, whole.length ≤ room → (delivery (some room)).written = whole
  full : ∀ room, room < whole.length →
    (delivery (some room)).result = .error (.device .full) ∧
      (delivery (some room)).written = whole.take room

theorem convert_cut {parser : Xml.Parser} {content : List UInt8} {configuration : Configuration}
    (header : String)
    (built : (Configuration.buildFromContent parser content).result = .ok configuration) :
    Cut (convert parser header · content) (Text.bytes (Emission.text header configuration)) := by
  have ended (capacity : Capacity) :
      (convert parser header capacity content).written =
          capacity.accepted (Text.bytes (Emission.text header configuration)) ∧
        (convert parser header capacity content).result =
          if capacity.holds (Text.bytes (Emission.text header configuration)) then .ok ()
          else .error (.device .full) := by
    rw [convert_of_ok built, ← Emission.join_parts, ← flatMap_bytes]
    exact deliver_cut capacity (Emission.parts header configuration)
  constructor
  · obtain ⟨written, result⟩ := ended none
    exact ⟨result, written⟩
  · intro room
    rw [(ended (some room)).2, ← Capacity.holds_some]
    split
    · rename_i fits
      exact iff_of_true rfl fits
    · rename_i excess
      exact iff_of_false nofun excess
  · intro room fits
    exact (ended (some room)).1.trans (List.take_of_length_le fits)
  · intro room excess
    obtain ⟨written, result⟩ := ended (some room)
    rw [if_neg (mt Capacity.holds_some.mp (Nat.not_le_of_lt excess))] at result
    exact ⟨result, written⟩

/-- A document that is refused leaves the sink empty, and any other one leaves the text as far as
the room goes, wherever among the calls the room ends. -/
theorem convert_cut_exactly (parser : Xml.Parser) (header : String) (content : List UInt8) :
    (∀ capacity, convert parser header capacity content =
        (process parser header content).delivery capacity) ∧
      (∀ failure, (Configuration.buildFromContent parser content).result = .error failure →
        ∀ capacity, (convert parser header capacity content).result = .error failure ∧
          (convert parser header capacity content).written = []) ∧
      ∀ configuration,
        (Configuration.buildFromContent parser content).result = .ok configuration →
          Cut (convert parser header · content)
            (Text.bytes (Emission.text header configuration)) := by
  refine ⟨fun capacity => convert_eq_process parser header capacity content, ?_, ?_⟩
  · intro failure refused capacity
    rw [convert_of_error refused]
    exact ⟨rfl, rfl⟩
  · intro configuration built
    exact convert_cut header built

end BusTables
