import BusTables.Failure
import BusTables.Log

/-!
# Traced computations

A traced computation reports messages and then ends with a value or a failure.  What it reports
before a failure stays reported.  The value or failure alone behaves like a computation without
messages (`result_bind`).
-/

namespace BusTables

/-- The messages of a computation and its outcome. -/
structure Traced (α : Type) where
  messages : List Message
  result : Except Failure α

namespace Traced

variable {α β : Type}

/-- A computation that says nothing. -/
def ofExcept (result : Except Failure α) : Traced α := ⟨[], result⟩

/-- A computation that only says something. -/
def report (message : Message) : Traced Unit := ⟨[message], .ok ()⟩

/-- One computation after another, unless the first fails. -/
def andThen (first : Traced α) (next : α → Traced β) : Traced β :=
  match first.result with
  | .ok value =>
      let second := next value
      ⟨first.messages ++ second.messages, second.result⟩
  | .error failure => ⟨first.messages, .error failure⟩

instance : Monad Traced where
  pure value := ⟨[], .ok value⟩
  bind := andThen

instance : LawfulMonad Traced := LawfulMonad.mk' Traced
  (by
    intro α computation
    show andThen computation _ = computation
    rcases computation with ⟨messages, _ | value⟩ <;> simp [andThen])
  (by
    intro α β value next
    show andThen ⟨[], .ok value⟩ next = next value
    simp [andThen])
  (by
    intro α β γ first next last
    show andThen (andThen first next) last = andThen first fun value => andThen (next value) last
    rcases first with ⟨messages, _ | value⟩
    · rfl
    · simp only [andThen]
      cases (next value).result <;> simp)

instance : MonadLift (Except Failure) Traced where
  monadLift := ofExcept

@[simp] theorem messages_pure (value : α) : (pure value : Traced α).messages = [] :=
  rfl

@[simp] theorem result_pure (value : α) : (pure value : Traced α).result = .ok value :=
  rfl

@[simp] theorem messages_ofExcept (result : Except Failure α) :
    (ofExcept result).messages = [] :=
  rfl

@[simp] theorem result_ofExcept (result : Except Failure α) :
    (ofExcept result).result = result :=
  rfl

@[simp] theorem messages_report (message : Message) : (report message).messages = [message] :=
  rfl

@[simp] theorem result_report (message : Message) : (report message).result = .ok () :=
  rfl

/-- The outcome of two computations hangs on their outcomes only. -/
@[simp] theorem result_bind (first : Traced α) (next : α → Traced β) :
    (first >>= next).result = first.result >>= fun value => (next value).result := by
  show (andThen first next).result = _
  unfold andThen
  cases first.result <;> rfl

/-- After a value the messages of the second computation follow. -/
theorem messages_bind_of_ok {first : Traced α} {next : α → Traced β} {value : α}
    (ended : first.result = .ok value) :
    (first >>= next).messages = first.messages ++ (next value).messages := by
  show (andThen first next).messages = _
  simp [andThen, ended]

end Traced

end BusTables
