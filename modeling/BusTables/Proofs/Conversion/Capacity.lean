import BusTables.Conversion

/-!
# The room of a sink

A sink takes of some bytes what fits into its room.  Bytes in two parts are taken one part after
the other, and so are the portions of a text: what is taken of them all ends where the room ends
(`deliver_cut`).
-/

namespace BusTables

namespace Capacity

variable (capacity : Capacity) (first later : List UInt8)

theorem holds_append : capacity.holds (first ++ later) =
    (capacity.holds first && (capacity.without first).holds later) := by
  cases capacity with
  | none => rfl
  | some room =>
      rw [Bool.eq_iff_iff]
      simp [holds, without]
      omega

theorem accepted_append : capacity.accepted (first ++ later) =
    capacity.accepted first ++ (capacity.without first).accepted later := by
  cases capacity with
  | none => rfl
  | some room => exact List.take_append

theorem without_append :
    capacity.without (first ++ later) = (capacity.without first).without later := by
  cases capacity with
  | none => rfl
  | some room => simp [without, Nat.sub_sub]

variable {capacity} {bytes : List UInt8}

theorem holds_some {room : Nat} : holds (some room) bytes = true ↔ bytes.length ≤ room :=
  decide_eq_true_iff

theorem accepted_of_holds (fits : capacity.holds bytes = true) :
    capacity.accepted bytes = bytes := by
  cases capacity with
  | none => rfl
  | some room => exact List.take_of_length_le (holds_some.mp fits)

/-- Where there is no room nothing is taken. -/
@[simp] theorem accepted_zero : accepted (some 0) bytes = [] :=
  rfl

/-- Bytes that do not fit leave no room. -/
theorem without_of_not_holds (excess : capacity.holds bytes = false) :
    capacity.without bytes = some 0 := by
  cases capacity with
  | none => cases excess
  | some room =>
      have more : room < bytes.length := by
        rwa [← Nat.not_le, ← holds_some, Bool.not_eq_true]
      exact congrArg some (Nat.sub_eq_zero_of_le (Nat.le_of_lt more))

end Capacity

/-- What a sink takes of parts ends where its room ends. -/
theorem deliver_cut (capacity : Capacity) (parts : List Part) :
    (deliver capacity parts).written =
        capacity.accepted ((parts.filterMap Part.text?).flatMap Text.bytes) ∧
      (deliver capacity parts).result =
        if capacity.holds ((parts.filterMap Part.text?).flatMap Text.bytes) then .ok ()
        else .error (.device .full) := by
  induction parts generalizing capacity with
  | nil => cases capacity <;> simp [deliver, Capacity.accepted, Capacity.holds]
  | cons part later ih =>
      cases part with
      | note message => exact ih capacity
      | portion text =>
          obtain ⟨written, result⟩ := ih (capacity.without (Text.bytes text))
          have split : (Part.portion text :: later).filterMap Part.text? =
              text :: later.filterMap Part.text? := rfl
          rw [split, List.flatMap_cons, Capacity.accepted_append, Capacity.holds_append, deliver]
          cases fits : capacity.holds (Text.bytes text) with
          | true => simp [Delivery.after, written, result, Capacity.accepted_of_holds fits]
          | false => simp [Delivery.cut, Capacity.without_of_not_holds fits]

theorem written_of_deliver {capacity : Capacity} {parts : List Part}
    (accepted : (deliver capacity parts).result = .ok ()) :
    (deliver capacity parts).written = (parts.filterMap Part.text?).flatMap Text.bytes := by
  obtain ⟨written, result⟩ := deliver_cut capacity parts
  rw [result] at accepted
  split at accepted
  · rename_i fits
    rw [written, Capacity.accepted_of_holds fits]
  · cases accepted

theorem messages_of_deliver {capacity : Capacity} {parts : List Part}
    (accepted : (deliver capacity parts).result = .ok ()) :
    (deliver capacity parts).messages = parts.filterMap Part.message? := by
  induction parts generalizing capacity with
  | nil => rfl
  | cons part later ih =>
      cases part with
      | note message => exact congrArg (message :: ·) (ih accepted)
      | portion text =>
          rw [deliver] at accepted ⊢
          cases fits : capacity.holds (Text.bytes text) with
          | true =>
              rw [fits] at accepted
              exact ih accepted
          | false =>
              rw [fits] at accepted
              cases accepted

end BusTables
