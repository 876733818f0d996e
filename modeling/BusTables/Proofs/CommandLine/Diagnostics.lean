import BusTables.Proofs.CommandLine.Marks
import BusTables.Proofs.CommandLine.Runs
import BusTables.Proofs.Configuration.Messages
import BusTables.Proofs.Conversion.Complete

/-!
# When a diagnostic is one line

A run that reports no details and refuses a document for its elements or their values reports one
message and nothing else (`session_diagnoses`).  The report is a single line if the message quotes
no line feed, and it breaks where the integer literal that is quoted does.  Of a document that the
parser cannot read on, its own words are reported (`Directory.run_of_fault`).
-/

namespace BusTables.CommandLine

/-- A text is one line: its only line feed is its last character. -/
def IsLine (text : String) : Prop := ∃ line : List Char, '\n' ∉ line ∧ text.toList = line ++ ['\n']

theorem isLine_iff {text : String} {line : List Char} (ended : text.toList = line ++ ['\n']) :
    IsLine text ↔ '\n' ∉ line := by
  constructor
  · rintro ⟨other, whole, same⟩
    rw [ended] at same
    rwa [List.append_cancel_right same]
  · exact fun whole => ⟨line, whole, ended⟩

/-- A failure of the kinds that a document with markup in order can have. -/
inductive OfDocument : Failure → Prop where
  | schema (fault : SchemaFault) : OfDocument (.schema fault)
  | value (fault : ValueFault) : OfDocument (.value fault)

theorem load_framed {toolkit : Toolkit} {content : Content} {failure : Failure}
    (refused : (load toolkit content).result = .error failure) (kind : OfDocument failure) :
    failure.Framed := by
  unfold load at refused
  split at refused
  · cases refused
    cases kind
  · split at refused
    · exact Configuration.buildFromContent_framed _ _ failure refused
    · exact Configuration.buildFromContent_framed _ _ failure refused
    · cases refused
      cases kind

/-- The report of a failure is one line, unless a line feed is quoted. -/
theorem isLine_failureLine_iff {failure : Failure} (framed : failure.Framed) :
    IsLine (failureLine failure) ↔ '\n' ∉ failure.quotation.toList := by
  have last : ".\n".toList = ['.', '\n'] := by decide
  have ended : (failureLine failure).toList =
      ("Failure: ".toList ++ failure.message.toList ++ ['.']) ++ ['\n'] := by
    rw [failureLine, String.toList_append, String.toList_append, last]
    simp only [List.append_assoc, List.cons_append, List.nil_append]
  have message : '\n' ∉ failure.message.toList ↔ '\n' ∉ failure.quotation.toList := by
    rw [← List.count_eq_zero, ← List.count_eq_zero, framed]
  rw [isLine_iff ended, ← message]
  simp

/-- On an unobtrusive host nothing happens but that the failure is reported. -/
theorem session_diagnoses {σ : Type} {host : Host (StateM σ)} {state : σ} {toolkit : Toolkit}
    {arguments : List String} {request : Request} {content : Content} {failure : Failure}
    (unobtrusive : Unobtrusive host) (asked : toolkit.task arguments = .ok (.convert request))
    (quiet : request.detail = none)
    (opened : ((host.read request.input).run state).1 = .ok content)
    (refused : (load toolkit content).result = .error failure) (kind : OfDocument failure) :
    (session toolkit host arguments).run state =
        (1, host.reported ("Failure: " ++ failure.message ++ ".\n") state) ∧
      (IsLine ("Failure: " ++ failure.message ++ ".\n") ↔ '\n' ∉ failure.quotation.toList) :=
  ⟨session_of_refused unobtrusive asked quiet opened refused,
    isLine_failureLine_iff (load_framed refused kind)⟩

namespace Directory

/-- A document that is refused for its elements or their values is reported in one line, unless the
literal that is quoted holds a line feed. -/
theorem run_diagnoses {toolkit : Toolkit} {files : List (String × List UInt8)}
    {arguments : List String} {request : Request} {content : Content} {failure : Failure}
    (asked : toolkit.task arguments = .ok (.convert request)) (quiet : request.detail = none)
    (opened : contentOf ⟨files, "", ""⟩ request.input = .ok content)
    (refused : (load toolkit content).result = .error failure) (kind : OfDocument failure) :
    run toolkit ⟨files, "", ""⟩ arguments =
        (1, ⟨files, "", "Failure: " ++ failure.message ++ ".\n"⟩) ∧
      (IsLine ("Failure: " ++ failure.message ++ ".\n") ↔ '\n' ∉ failure.quotation.toList) := by
  obtain ⟨ended, line⟩ :=
    session_diagnoses host_unobtrusive asked quiet opened refused kind
  refine ⟨ended.trans ?_, line⟩
  simp [reported_eq, Directory.report]

/-- A document that the parser cannot read on is reported in the words of the parser. -/
theorem run_of_fault {toolkit : Toolkit} {files : List (String × List UInt8)}
    {arguments : List String} {request : Request} {content : List UInt8}
    {events : List Xml.Event} {assembly : Element.Assembly} {fault : Xml.Fault}
    {later : List (Except Xml.Fault Xml.Event)} (detects : toolkit.Detects)
    (asked : toolkit.task arguments = .ok (.convert request)) (quiet : request.detail = none)
    (opened : contentOf ⟨files, "", ""⟩ request.input = .ok (.bytes content))
    (native : ¬ByteOrderMark.Foreign content)
    (read : toolkit.parser.read (ByteOrderMark.skip content) =
      events.map .ok ++ .error fault :: later)
    (assembled : events.foldlM Element.Assembly.advance .empty = .ok assembly) :
    run toolkit ⟨files, "", ""⟩ arguments =
      (1, ⟨files, "", "Failure: XML parsing error: " ++ fault.text ++ ".\n"⟩) := by
  have refused : (load toolkit (.bytes content)).result = .error (.markup fault) := by
    rw [load_bytes detects native, Configuration.buildFromContent, Element.ofContent, read,
      Element.ofItems_of_fault assembled]
    rfl
  have line : failureLine (.markup fault) =
      "Failure: " ++ ("XML parsing error: " ++ fault.text) ++ ".\n" :=
    rfl
  rw [run_of_refused asked quiet opened refused, line]
  simp [Directory.report, ← String.append_assoc]

example : run { Toolkit.standard with parser := ⟨fun _ => [.error ⟨"1:1 No root"⟩], ⟨""⟩⟩ }
      ⟨[("in.xml", [])], "", ""⟩ ["in.xml"] =
    (1, ⟨[("in.xml", [])], "", "Failure: XML parsing error: 1:1 No root.\n"⟩) := by
  decide +kernel

/-- A document whose only slave has a number as its vendor. -/
def vendorDocument (number : List Char) : List UInt8 :=
  Text.bytesOf (tagged "EtherCATConfig" (tagged "Config" (tagged "Slave" (
    tagged "Info" (tagged "VendorId" number)))))

theorem load_vendorDocument {number : List Char} {failure : Failure}
    (unmarked : ByteOrderMark.ofContent? (vendorDocument number) = none)
    (passed : (Xml.eventsWithin? 1000 (vendorDocument number)).any (fun events =>
      (Element.ofEvents events).toOption.any fun root => decide
        ((Configuration.buildFromRoot root).result = .error failure)) = true) :
    (load .standard (.bytes (vendorDocument number))).result = .error failure := by
  rw [load_of_unmarked unmarked]
  exact result_of_eventsWithin? passed

theorem asked_input : Toolkit.standard.task ["in.xml"] =
    .ok (.convert ⟨"in.xml", none, Emission.defaultHeader, none⟩) :=
  Toolkit.task_standard (by decide)

/-- A blank in the literal breaks no line. -/
theorem run_diagnoses_blank :
    run .standard ⟨[("in.xml", vendorDocument ['1', ' ', '2'])], "", ""⟩ ["in.xml"] =
        (1, ⟨[("in.xml", vendorDocument ['1', ' ', '2'])], "",
          "Failure: Invalid integer literal '1 2' in Info/VendorId.\n"⟩) ∧
      IsLine "Failure: Invalid integer literal '1 2' in Info/VendorId.\n" := by
  have refused : (load .standard (.bytes (vendorDocument ['1', ' ', '2']))).result =
      .error (.value (.integer "1 2" "Info/VendorId")) :=
    load_vendorDocument (by decide) (by decide +kernel)
  have opened : contentOf ⟨[("in.xml", vendorDocument ['1', ' ', '2'])], "", ""⟩ "in.xml" =
      .ok (.bytes (vendorDocument ['1', ' ', '2'])) :=
    rfl
  obtain ⟨ended, line⟩ := run_diagnoses asked_input rfl opened refused (.value _)
  exact ⟨ended, line.mpr (by decide)⟩

/-- A line feed in the literal breaks the line, though the arguments are in order. -/
theorem run_breaks_line :
    Toolkit.standard.task ["in.xml"] =
        .ok (.convert ⟨"in.xml", none, Emission.defaultHeader, none⟩) ∧
      (load .standard (.bytes (vendorDocument ['1', '\n', '2']))).result =
        .error (.value (.integer "1\n2" "Info/VendorId")) ∧
      run .standard ⟨[("in.xml", vendorDocument ['1', '\n', '2'])], "", ""⟩ ["in.xml"] =
        (1, ⟨[("in.xml", vendorDocument ['1', '\n', '2'])], "",
          "Failure: Invalid integer literal '1\n2' in Info/VendorId.\n"⟩) ∧
      ¬IsLine "Failure: Invalid integer literal '1\n2' in Info/VendorId.\n" := by
  have refused : (load .standard (.bytes (vendorDocument ['1', '\n', '2']))).result =
      .error (.value (.integer "1\n2" "Info/VendorId")) :=
    load_vendorDocument (by decide) (by decide +kernel)
  have opened : contentOf ⟨[("in.xml", vendorDocument ['1', '\n', '2'])], "", ""⟩ "in.xml" =
      .ok (.bytes (vendorDocument ['1', '\n', '2'])) :=
    rfl
  have broken : ¬IsLine (failureLine (.value (.integer "1\n2" "Info/VendorId"))) :=
    mt (isLine_failureLine_iff (load_framed refused (.value _))).mp (by decide)
  exact ⟨asked_input, refused, run_of_refused asked_input rfl opened refused, broken⟩

end Directory

end BusTables.CommandLine
