import BusTables.Proofs.Configuration.Acceptance
import BusTables.Proofs.Text.Plain

/-!
# What the messages of failures hold

The builder names elements by fixed paths, shows a byte of malformed data in an escaped form, and
quotes a text of the document in one place only: an integer literal that cannot be read stands in
its message as it stands in the document.  What the parser says of the markup is quoted as well.  So
the message of a failure has no line feeds but those of the literal, or of what the parser says
(`Configuration.buildFromContent_framed`).
-/

namespace BusTables

namespace Text

/-- The characters that stand for a byte are never a line feed. -/
theorem not_mem_escapedByte (byte : UInt8) : '\n' ∉ escapedByte byte := by
  have every : ∀ code < 256, '\n' ∉ escapedByte (UInt8.ofNat code) := by decide +kernel
  have escaped := every byte.toNat byte.toNat_lt
  rwa [UInt8.ofNat_toNat] at escaped

theorem not_mem_quotedByte (byte : UInt8) : '\n' ∉ (quotedByte byte).toList := by
  simp [quotedByte, not_mem_escapedByte]

end Text

namespace Failure

/-- The text that the message of a failure quotes as it stands. -/
def quotation : Failure → String
  | .value (.integer literal _) => literal
  | .markup fault => fault.text
  | _ => ""

/-- The message of a failure has no line feeds but those of what it quotes. -/
def Framed (failure : Failure) : Prop :=
  failure.message.toList.count '\n' = failure.quotation.toList.count '\n'

theorem framed_of_whole {failure : Failure} (silent : failure.quotation = "")
    (whole : '\n' ∉ failure.message.toList) : failure.Framed := by
  rw [Framed, silent, List.count_eq_zero_of_not_mem whole]
  rfl

section Paths

variable {path : String} (whole : '\n' ∉ path.toList)

include whole

theorem framed_tooMany : (schema (.tooMany path)).Framed := by
  refine framed_of_whole rfl ?_
  change '\n' ∉ ("Too many " ++ path ++ " elements").toList
  simp [whole]

theorem framed_tooFew : (schema (.tooFew path)).Framed := by
  refine framed_of_whole rfl ?_
  change '\n' ∉ ("Too few " ++ path ++ " elements").toList
  simp [whole]

theorem framed_integer (literal : String) : (value (.integer literal path)).Framed := by
  change ("Invalid integer literal '" ++ literal ++ "' in " ++ path).toList.count '\n' =
    literal.toList.count '\n'
  have first : "Invalid integer literal '".toList.count '\n' = 0 := by decide
  have second : "' in ".toList.count '\n' = 0 := by decide
  simp only [String.toList_append, List.count_append, first, second,
    List.count_eq_zero_of_not_mem whole, Nat.zero_add, Nat.add_zero]

end Paths

theorem framed_markup (fault : Xml.Fault) : (markup fault).Framed := by
  change ("XML parsing error: " ++ fault.text).toList.count '\n' = fault.text.toList.count '\n'
  have first : "XML parsing error: ".toList.count '\n' = 0 := by decide
  rw [String.toList_append, List.count_append, first, Nat.zero_add]

theorem framed_emptyTransition : (value .emptyTransition).Framed :=
  framed_of_whole rfl (by decide)

theorem framed_payload (fault : Payload.Fault) : (value (.payload fault)).Framed := by
  refine framed_of_whole rfl ?_
  cases fault with
  | oddLength => decide
  | wrongLength => decide
  | invalidByte byte position =>
      change '\n' ∉ ("Invalid hex data: " ++ ("Invalid character " ++ Text.quotedByte byte ++
        (" at position " ++ toString position))).toList
      have number : '\n' ∉ (toString position).toList := (Text.plain_nat position).whole
      have shown := Text.not_mem_quotedByte byte
      simp only [String.toList_append, List.mem_append, not_or]
      exact ⟨by decide, ⟨by decide, shown⟩, by decide, number⟩

end Failure

/-- Whatever a computation fails with has a property. -/
def Fails {α : Type} (property : Failure → Prop) (result : Except Failure α) : Prop :=
  ∀ failure, result = .error failure → property failure

namespace Fails

variable {α β : Type} {property : Failure → Prop} {result : Except Failure α}

theorem value (given : α) : Fails property (.ok given) :=
  fun _ failed => nomatch failed

theorem failure {failure : Failure} (holds : property failure) :
    Fails property (.error failure : Except Failure α) := by
  rintro _ ⟨⟩
  exact holds

theorem bind {next : α → Except Failure β} (first : Fails property result)
    (rest : ∀ value, Fails property (next value)) : Fails property (result >>= next) := by
  cases result with
  | error reason => exact failure (first reason rfl)
  | ok given => exact rest given

theorem foldlM {step : β → α → Except Failure β}
    (each : ∀ state item, Fails property (step state item)) (items : List α) (state : β) :
    Fails property (items.foldlM step state) := by
  induction items generalizing state with
  | nil => exact value state
  | cons item later ih =>
      rw [List.foldlM_cons]
      exact (each state item).bind ih

/-- What is decided by checks fails with what one of them reports. -/
theorem of_decides {checks : List Check} (decided : Decides checks result)
    (each : ∀ check ∈ checks, property check.failure) : Fails property result := by
  intro failure failed
  rw [decided.error_iff, firstFault?, Option.map_eq_some_iff] at failed
  obtain ⟨check, found, rfl⟩ := failed
  exact each check (List.mem_of_find?_eq_some found)

end Fails

/-- Every check reports a message without line feeds but those of what it quotes. -/
def AllFramed (checks : List Check) : Prop := ∀ check ∈ checks, check.failure.Framed

@[simp] theorem allFramed_nil : AllFramed [] :=
  fun _ member => absurd member List.not_mem_nil

@[simp] theorem allFramed_cons (check : Check) (others : List Check) :
    AllFramed (check :: others) ↔ check.failure.Framed ∧ AllFramed others :=
  List.forall_mem_cons

@[simp] theorem allFramed_append (first later : List Check) :
    AllFramed (first ++ later) ↔ AllFramed first ∧ AllFramed later :=
  List.forall_mem_append

theorem AllFramed.flatMap {α : Type} {checked : α → List Check}
    (each : ∀ item, AllFramed (checked item)) (items : List α) :
    AllFramed (items.flatMap checked) :=
  List.forall_mem_flatMap.mpr fun item _ => each item

open Failure

namespace Element

variable (element : Element) {path : String} (whole : '\n' ∉ path.toList)

include whole

theorem allFramed_literals : AllFramed (element.literals path) :=
  List.forall_mem_map.mpr fun found _ => framed_integer whole found.content

theorem allFramed_oneNumber : AllFramed (element.oneNumber path) := by
  rw [oneNumber, allFramed_cons, allFramed_cons]
  exact ⟨framed_tooMany whole, framed_tooFew whole, element.allFramed_literals whole⟩

theorem allFramed_optionalNumber : AllFramed (element.optionalNumber path) := by
  rw [optionalNumber, allFramed_cons]
  exact ⟨framed_tooMany whole, element.allFramed_literals whole⟩

end Element

namespace Command

theorem allFramed_payloadChecks (text : String) : AllFramed (payloadChecks text) := by
  unfold payloadChecks
  split
  · exact allFramed_nil
  · rename_i fault _
    rw [allFramed_cons]
    exact ⟨framed_payload fault, allFramed_nil⟩

theorem allFramed_fieldChecks (element : Element) : AllFramed (fieldChecks element) := by
  unfold fieldChecks
  simp only [List.flatten_cons, List.flatten_nil, allFramed_append, allFramed_cons, allFramed_nil,
    and_true]
  refine ⟨framed_tooFew (by decide), ?_, element.allFramed_oneNumber (by decide),
    framed_tooMany (by decide), framed_tooMany (by decide), element.allFramed_oneNumber (by decide),
    element.allFramed_oneNumber (by decide), element.allFramed_oneNumber (by decide),
    allFramed_payloadChecks _⟩
  exact List.forall_mem_map.mpr fun _ _ => framed_emptyTransition

theorem allFramed_checks (element : Element) : AllFramed (checks element) := by
  have commented : AllFramed [element.atMostOne "Comment"] := by
    rw [allFramed_cons]
    exact ⟨framed_tooMany (by decide), allFramed_nil⟩
  unfold checks
  split
  · exact commented
  · rw [allFramed_cons]
    refine ⟨framed_tooMany (by decide), ?_⟩
    split
    · exact commented
    · exact allFramed_fieldChecks element

end Command

namespace Slave

theorem allFramed_checks (element : Element) : AllFramed (checks element) := by
  unfold checks identityChecks
  simp only [List.flatten_cons, List.flatten_nil, allFramed_append, allFramed_nil, and_true]
  exact ⟨⟨element.allFramed_optionalNumber (by decide), element.allFramed_oneNumber (by decide),
    element.allFramed_oneNumber (by decide), element.allFramed_oneNumber (by decide)⟩,
    AllFramed.flatMap Command.allFramed_checks _⟩

end Slave

namespace Element

theorem advance_framed (assembly : Assembly) (event : Xml.Event) :
    Fails Framed (assembly.advance event) := by
  unfold Assembly.advance
  split
  · exact .value _
  · split <;> exact .value _
  · split
    · exact .failure (framed_of_whole rfl (by decide))
    · exact .value _
    · exact .value _
  · exact .value _

theorem take_framed (assembly : Assembly) (item : Except Xml.Fault Xml.Event) :
    Fails Framed (assembly.take item) := by
  cases item with
  | error fault => exact .failure (framed_markup fault)
  | ok event => exact advance_framed assembly event

theorem ofItems_framed (items : List (Except Xml.Fault Xml.Event)) :
    Fails Framed (ofItems items) := by
  refine (Fails.foldlM take_framed items Assembly.empty).bind fun assembly => ?_
  split
  · exact .value _
  · exact .failure (framed_of_whole rfl (by decide))

end Element

namespace Configuration

theorem build_framed (element : Element) : Fails Framed (build element).result :=
  .of_decides (decides_build element) (AllFramed.flatMap Slave.allFramed_checks _)

theorem buildFromRoot_framed (root : Element) : Fails Framed (buildFromRoot root).result := by
  have whole : '\n' ∉ (pathFrom root.name).toList := by
    unfold pathFrom
    split <;> decide
  unfold buildFromRoot
  rw [Traced.result_bind]
  refine Fails.bind (.value ()) fun _ => ?_
  rw [Traced.result_bind]
  have one : AllFramed
      [root.atMostOne (pathFrom root.name), root.atLeastOne (pathFrom root.name)] :=
    (allFramed_cons _ _).mpr ⟨framed_tooMany whole,
      (allFramed_cons _ _).mpr ⟨framed_tooFew whole, allFramed_nil⟩⟩
  exact Fails.bind (.of_decides (root.decides_findOne (pathFrom root.name)) one) build_framed

/-- No failure of the builder has a line feed in its message that is not in what is quoted. -/
theorem buildFromContent_framed (parser : Xml.Parser) (content : List UInt8) :
    Fails Framed (buildFromContent parser content).result := by
  unfold buildFromContent
  rw [Traced.result_bind]
  exact (Element.ofItems_framed (parser.read content)).bind buildFromRoot_framed

end Configuration

end BusTables
