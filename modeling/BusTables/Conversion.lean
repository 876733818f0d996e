import BusTables.Configuration.Builder
import BusTables.Emission
import BusTables.Text.Bytes

/-!
# Conversion

A conversion reads a document and writes the tables of its configuration to a sink.  A sink takes
bytes until it is full.  Nothing is written unless the whole document has been read, and what
comes after a failure is neither written nor reported.
-/

namespace BusTables

/-- What was reported and written, and how it ended. -/
structure Delivery where
  messages : List Message
  written : List UInt8
  result : Except Failure Unit

namespace Delivery

/-- A delivery with messages and bytes that come before it. -/
def after (messages : List Message) (written : List UInt8) (delivery : Delivery) : Delivery :=
  ⟨messages ++ delivery.messages, written ++ delivery.written, delivery.result⟩

/-- The delivery that fails with nothing reported, when only some bytes fit. -/
def cut (written : List UInt8) : Delivery := ⟨[], written, .error (.device .full)⟩

end Delivery

/-- The room of a sink; without a number there is no end to it. -/
abbrev Capacity := Option Nat

/-- The bytes fit into the room. -/
def Capacity.holds (capacity : Capacity) (bytes : List UInt8) : Bool :=
  capacity.all (bytes.length ≤ ·)

/-- The bytes that a sink takes. -/
def Capacity.accepted (capacity : Capacity) (bytes : List UInt8) : List UInt8 :=
  match capacity with
  | none => bytes
  | some room => bytes.take room

/-- The room that is left behind bytes that fit. -/
def Capacity.without (capacity : Capacity) (bytes : List UInt8) : Capacity :=
  capacity.map (· - bytes.length)

/-- Parts are reported and written in turn, until a portion does not fit. -/
def deliver (capacity : Capacity) : List Part → Delivery
  | [] => ⟨[], [], .ok ()⟩
  | .note message :: later => (deliver capacity later).after [message] []
  | .portion text :: later =>
      let bytes := Text.bytes text
      if capacity.holds bytes then
        (deliver (capacity.without bytes) later).after [] bytes
      else .cut (capacity.accepted bytes)

/-- Where there is no end to the room, everything is written. -/
theorem deliver_none (parts : List Part) :
    deliver none parts =
      ⟨parts.filterMap Part.message?, (parts.filterMap Part.text?).flatMap Text.bytes, .ok ()⟩ := by
  induction parts with
  | nil => rfl
  | cons part later ih =>
      cases part with
      | note message =>
          simp [deliver, ih, Delivery.after, List.filterMap_cons, Part.message?, Part.text?]
      | portion text =>
          simp [deliver, ih, Capacity.holds, Capacity.without, Delivery.after,
            List.filterMap_cons, Part.message?, Part.text?]

/-- The tables for the document that a parser reads in some bytes are written to a sink. -/
def convert (parser : Xml.Parser) (header : String) (capacity : Capacity)
    (content : List UInt8) : Delivery :=
  let built := Configuration.buildFromContent parser content
  match built.result with
  | .ok configuration =>
      (deliver capacity (Emission.parts header configuration)).after built.messages []
  | .error failure => ⟨built.messages, [], .error failure⟩

end BusTables
