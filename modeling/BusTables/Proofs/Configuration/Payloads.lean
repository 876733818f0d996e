import BusTables.Proofs.Configuration.Acceptance
import BusTables.Proofs.Payload.Pairs

/-!
# What the payload of a command decides

The payload of a command is looked at last.  An element that holds all else that a command needs
is a command if its text is a payload, and is refused otherwise for what is wrong with the text
and for nothing else (`Command.build_payload`).
-/

namespace BusTables

namespace Element

variable (element : Element) {names : List String}

theorem exists_readInt (path : String) (along : steps path = names)
    (given : (element.number? names).isSome) : ∃ value, element.readInt path = .ok value :=
  (element.decides_readInt path).ok_iff.mpr ((element.allMet_oneNumber along).mpr given)

theorem readOptionalText_eq (path : String) (along : steps path = names) {text : String}
    (held : element.text? names = some text) : element.readOptionalText path "" = .ok text := by
  have few : (element.under names).length ≤ 1 := by
    rw [← Command.isSome_text?, held]
    rfl
  obtain ⟨read, ended⟩ := (element.decides_readOptionalText path "").ok_iff.mpr
    ((allMet_cons _ _).mpr ⟨(element.met_atMostOne along).mpr few, allMet_nil⟩)
  have same := text?_of_readOptionalText names along ended
  rw [ended, Option.some.inj (held.symm.trans same)]

end Element

open Element

namespace Command

/-- The element of a command holds a text for its payload, and all else that a command needs. -/
structure Awaits (element : Element) (text : String) : Prop where
  transitions : element.under ["Transition"] ≠ []
  named : ∀ name ∈ element.under ["Transition"], Text.trim name.content ≠ ""
  timeout : (element.number? ["Timeout"]).isSome
  specifier : (element.number? ["Ccs"]).isSome
  index : (element.number? ["Index"]).isSome
  subIndex : (element.number? ["SubIndex"]).isSome
  comment : (element.under ["Comment"]).length ≤ 1
  data : element.text? ["Data"] = some text

variable {element : Element} {text : String}

theorem Awaits.exists_transitions (awaits : Awaits element text) :
    ∃ names, (element.under ["Transition"]).mapM transition = .ok names := by
  rw [(Decides.mapM decides_transition _).ok_iff, allMet_flatMap]
  intro name member
  rw [allMet_cons, and_iff_left allMet_nil]
  simpa [nameCheck] using awaits.named name member

theorem Awaits.find_eq (awaits : Awaits element text) :
    element.find "Transition" (some 1) none = .ok (element.under ["Transition"]) := by
  have along : steps "Transition" = ["Transition"] := by decide
  have some : AllMet [element.atLeastOne "Transition"] := by
    rw [allMet_cons, and_iff_left allMet_nil]
    exact (element.met_atLeastOne along).mpr awaits.transitions
  obtain ⟨named, found⟩ := (element.decides_find "Transition").ok_iff.mpr some
  rw [found, under_of_find along found]

/-- Nothing but the payload of such an element can be at fault. -/
theorem Awaits.exists_rest (awaits : Awaits element text) :
    ∃ rest : Payload → Command, (∀ data, (rest data).data = data) ∧
      ofElement element = payload text >>= fun data => .ok (rest data) := by
  obtain ⟨transitions, mapped⟩ := awaits.exists_transitions
  obtain ⟨timeout, readTimeout⟩ := element.exists_readInt "Timeout" (by decide) awaits.timeout
  obtain ⟨specifier, readSpecifier⟩ := element.exists_readInt "Ccs" (by decide) awaits.specifier
  obtain ⟨index, readIndex⟩ := element.exists_readInt "Index" (by decide) awaits.index
  obtain ⟨subIndex, readSubIndex⟩ :=
    element.exists_readInt "SubIndex" (by decide) awaits.subIndex
  obtain ⟨comment, held⟩ := Option.isSome_iff_exists.mp
    ((isSome_text? element ["Comment"]).mpr awaits.comment)
  have readComment := element.readOptionalText_eq "Comment" (by decide) held
  have readData := element.readOptionalText_eq "Data" (by decide) awaits.data
  let rest (transitions : List String) (data : Payload) : Command :=
    ⟨comment, transitions, element.attribute? "CompleteAccess" == some "1",
      UInt8.ofInt specifier, UInt16.ofInt index, UInt8.ofInt subIndex, microseconds timeout, data⟩
  have read : ofElement element = (element.under ["Transition"]).mapM transition >>=
      fun transitions => payload text >>= fun data => .ok (rest transitions data) := by
    rw [ofElement, awaits.find_eq, readTimeout, readData, readComment, readSpecifier, readIndex,
      readSubIndex]
    rfl
  refine ⟨rest transitions, fun _ => rfl, ?_⟩
  rw [read, mapped]
  rfl

theorem Awaits.build_eq_ok_iff (awaits : Awaits element text) (bytes : Payload) :
    (∃ command, (build element).result = .ok command ∧ command.data = bytes) ↔
      Payload.ofText text = .ok bytes := by
  obtain ⟨rest, data, read⟩ := awaits.exists_rest
  rw [result_build, read, payload]
  cases Payload.ofText text with
  | error fault =>
      constructor
      · rintro ⟨command, none, -⟩
        cases none
      · intro none
        cases none
  | ok given =>
      constructor
      · rintro ⟨command, ended, rfl⟩
        rw [← Except.ok.inj ended, data]
      · intro same
        exact ⟨rest given, rfl, (data given).trans (Except.ok.inj same)⟩

theorem Awaits.build_eq_error_iff (awaits : Awaits element text) (failure : Failure) :
    (build element).result = .error failure ↔
      ∃ fault, Payload.ofText text = .error fault ∧ failure = .value (.payload fault) := by
  obtain ⟨rest, -, read⟩ := awaits.exists_rest
  rw [result_build, read, payload]
  cases Payload.ofText text with
  | ok given =>
      constructor
      · intro none
        cases none
      · rintro ⟨fault, none, -⟩
        cases none
  | error fault =>
      constructor
      · intro ended
        exact ⟨fault, rfl, (Except.error.inj ended).symm⟩
      · rintro ⟨_, same, rfl⟩
        rw [← Except.error.inj same]
        rfl

open Payload in
/-- An element that awaits its payload is built exactly if its text without the blanks consists of
digits and has an even number of bytes, and then each byte has the value of its two digits; the
texts that spell a payload give it.  Any other text is refused for its number of bytes or else for
its first byte that is no digit. -/
theorem build_payload {element : Element} {text : String} (awaits : Awaits element text) :
    ((∃ command, (build element).result = .ok command) ↔
        (Text.bytesOf (stripped text)).length % 2 = 0 ∧
          ∀ character ∈ stripped text, IsHex character) ∧
      (∀ command, (build element).result = .ok command →
        (stripped text).length = 2 * command.data.length ∧
          ∀ position byte, command.data[position]? = some byte →
            ∃ high low upper lower, (stripped text)[2 * position]? = some high ∧
              (stripped text)[2 * position + 1]? = some low ∧ IsDigit high upper ∧
                IsDigit low lower ∧ byte.toNat = 16 * upper + lower) ∧
      (∀ bytes, Spells text.toList bytes ↔
        ∃ command, (build element).result = .ok command ∧ command.data = bytes) ∧
      ∀ failure, (build element).result = .error failure ↔
        ∃ fault, Faulty (Text.bytesOf (stripped text)) fault ∧
          failure = .value (.payload fault) := by
  refine ⟨?_, ?_, ?_, ?_⟩
  · rw [← exists_paired_iff]
    constructor
    · rintro ⟨command, ended⟩
      have read := (awaits.build_eq_ok_iff _).mp ⟨command, ended, rfl⟩
      exact ⟨command.data, ofText_eq_ok_iff.mp read⟩
    · rintro ⟨bytes, paired⟩
      obtain ⟨command, ended, -⟩ :=
        (awaits.build_eq_ok_iff bytes).mpr (ofText_eq_ok_iff.mpr paired)
      exact ⟨command, ended⟩
  · intro command ended
    have paired := ofText_eq_ok_iff.mp ((awaits.build_eq_ok_iff _).mp ⟨command, ended, rfl⟩)
    exact ⟨paired.length_eq, fun position byte => paired.exists_digits⟩
  · intro bytes
    rw [awaits.build_eq_ok_iff, ofText_eq_ok_iff_spells]
  · intro failure
    rw [awaits.build_eq_error_iff]
    simp only [ofText_eq_error_iff]

/-- The element of a command with a text for its payload. -/
def initializing (text : String) : Element :=
  let leaf (name text : String) : Element := ⟨name, [], some text, []⟩
  ⟨"InitCmd", [], none, [leaf "Transition" "PS", leaf "Timeout" "5", leaf "Ccs" "2",
    leaf "Index" "0x1C12", leaf "SubIndex" "0", leaf "Data" text]⟩

open Payload in
/-- A payload is spelled in digits of both cases with a blank between two of them; a vertical tab
is no such blank, and a letter of two bytes counts as two. -/
theorem build_payload_blanks :
    Awaits (initializing "0a\nf\tF") "0a\nf\tF" ∧
      (∃ command, (build (initializing "0a\nf\tF")).result = .ok command ∧
        command.data = [0x0A, 0xFF]) ∧
      Awaits (initializing "0 \x0bé") "0 \x0bé" ∧
      (build (initializing "0 \x0bé")).result =
        .error (.value (.payload (.invalidByte 0x0B 1))) := by
  have spelled : Awaits (initializing "0a\nf\tF") "0a\nf\tF" := by
    constructor <;> decide +kernel
  have misspelled : Awaits (initializing "0 \x0bé") "0 \x0bé" := by
    constructor <;> decide +kernel
  have zero : IsDigit '0' 0 := ⟨by decide, .inl rfl⟩
  have ten : IsDigit 'a' 10 := ⟨by decide, .inl rfl⟩
  have small : IsDigit 'f' 15 := ⟨by decide, .inl rfl⟩
  have capital : IsDigit 'F' 15 := ⟨by decide, .inr rfl⟩
  have adjacent : ∀ character ∈ [], character ∈ blanks := List.forall_mem_nil _
  have tab : ∀ character ∈ ['\t'], character ∈ blanks :=
    List.forall_mem_singleton.mpr (by decide)
  have spells : Spells ['0', 'a', '\n', 'f', '\t', 'F'] [0x0A, 0xFF] :=
    .byte zero adjacent ten rfl (.blank (by decide) (.byte small tab capital rfl .nil))
  have bytes : Text.bytesOf (stripped "0 \x0bé") = [0x30] ++ 0x0B :: [0xC3, 0xA9] := by decide
  have faulty : Faulty (Text.bytesOf (stripped "0 \x0bé")) (.invalidByte 0x0B 1) := by
    refine .invalidByte (by decide) bytes ?_ ?_
    · exact List.forall_mem_singleton.mpr (isHexByte_iff.mpr ⟨0, rfl⟩)
    · intro valid
      obtain ⟨value, read⟩ := isHexByte_iff.mp valid
      cases read
  exact ⟨spelled, ((build_payload spelled).2.2.1 _).mp spells, misspelled,
    ((build_payload misspelled).2.2.2 _).mpr ⟨_, faulty, rfl⟩⟩

end Command

end BusTables
