import BusTables.Proofs.CommandLine.Marks
import BusTables.Proofs.CommandLine.Runs
import BusTables.Proofs.Conversion.Cut

/-!
# The command line agrees with the conversion

A run reads its input, skips a mark, builds the configuration and makes its text by steps of its
own.  If it reports no details, it ends all the same as a conversion of the content behind the mark
to a sink without an end: with the same failure, or with the same bytes where they belong.  This
holds on any unobtrusive host (`session_follows`), and in a directory it says what every file holds
in the end (`Directory.run_agrees`).  Every request can be made by some arguments
(`exists_arguments`).
-/

namespace BusTables.CommandLine

open ByteOrderMark

section Requests

variable (arguments : Arguments) (header : String) (later : List String)

theorem task_letter (plain : header.toList.head? ≠ some '-') :
    arguments.task false ("-I" :: header :: later) =
      (arguments.withHeader (some header)).task false later := by
  have letter : arguments.task false ("-I" :: header :: later) =
      arguments.task true (header :: later) :=
    rfl
  have isFile : Arguments.isOption header.toList = false := by
    simp [Arguments.isOption, plain]
  rw [letter, Arguments.task, isFile]
  rfl

theorem task_word (plain : header.toList.head? ≠ some '=') :
    arguments.task false (("--include=" ++ header) :: later) =
      (arguments.withHeader (some header)).task false later := by
  have spelled : ("--include=" ++ header).toList = "--include=".toList ++ header.toList :=
    String.toList_append
  have longer : "--include=" ++ header ≠ "--" := by
    intro same
    have letters := congrArg String.toList same
    rw [spelled] at letters
    cases letters
  have value : String.ofList (header.toList.dropWhile (· == '=')) = header := by
    cases letters : header.toList with
    | nil => rw [List.dropWhile_nil, ← letters, String.ofList_toList]
    | cons first rest =>
        have other : (first == '=') = false := by
          rw [letters] at plain
          simpa using plain
        rw [List.dropWhile_cons, other, if_neg Bool.false_ne_true, ← letters, String.ofList_toList]
  have read : arguments.task false (("--include=" ++ header) :: later) =
      (arguments.withHeader (some (String.ofList (header.toList.dropWhile (· == '='))))).task
        false later := by
    have isOption : Arguments.isOption ("--include=".toList ++ header.toList) = true := rfl
    rw [Arguments.task, spelled, if_pos isOption]
    dsimp only
    rw [if_neg longer]
    rfl
  rw [read, value]

/-- Every request that asks for no details is made by some arguments. -/
theorem exists_arguments (input : String) (output : Option String) :
    ∃ arguments, Task.ofArguments arguments = .ok (.convert ⟨input, output, header, none⟩) := by
  have files : (Arguments.empty.withHeader (some header)).task false
      ("--" :: input :: output.toList) = .ok (.convert ⟨input, output, header, none⟩) := by
    cases output <;> rfl
  by_cases equals : header.toList.head? = some '='
  · -- Behind an equals sign the header would lose its start.
    have plain : header.toList.head? ≠ some '-' := by simp [equals]
    exact ⟨"-I" :: header :: "--" :: input :: output.toList,
      (task_letter _ header _ plain).trans files⟩
  · -- As an argument of its own the header might be taken for an option.
    exact ⟨("--include=" ++ header) :: "--" :: input :: output.toList,
      (task_word _ header _ equals).trans files⟩

end Requests

section Hosts

variable {σ : Type} {host : Host (StateM σ)} {state : σ}

/-- A run on a host ends as a conversion to a sink without an end does. -/
structure Follows (host : Host (StateM σ)) (state : σ) (output : Option String)
    (converted : Delivery) (ended : Nat × σ) : Prop where
  refused : ∀ failure, converted.result = .error failure →
    ended = (1, host.reported (failureLine failure) state)
  printed : converted.result = .ok () → output = none →
    ∃ text, Text.bytes text = converted.written ∧ ended = (0, host.printed text state)
  stored : converted.result = .ok () → ∀ path, output = some path →
    ∃ text, Text.bytes text = converted.written ∧ ended = host.stored path text state

/-- A run without details follows the conversion of what stands behind the mark. -/
theorem session_follows {toolkit : Toolkit} {arguments : List String} {request : Request}
    {content : List UInt8} (unobtrusive : Unobtrusive host) (detects : toolkit.Detects)
    (asked : toolkit.task arguments = .ok (.convert request)) (quiet : request.detail = none)
    (opened : ((host.read request.input).run state).1 = .ok (.bytes content))
    (native : ¬Foreign content) :
    Follows host state request.output
      (convert toolkit.parser request.header none (skip content))
      ((session toolkit host arguments).run state) := by
  have loaded := load_bytes detects native
  cases ended : (Configuration.buildFromContent toolkit.parser (skip content)).result with
  | error failure =>
      rw [← loaded] at ended
      rw [session_of_refused unobtrusive asked quiet opened ended]
      rw [loaded] at ended
      rw [convert_of_error ended]
      constructor
      · rintro _ ⟨⟩
        rfl
      all_goals
        intro accepted
        cases accepted
  | ok configuration =>
      obtain ⟨result, written⟩ := (convert_cut request.header ended).unbounded
      rw [← loaded] at ended
      constructor
      · intro failure refused
        rw [result] at refused
        cases refused
      · intro _ unnamed
        exact ⟨_, written.symm, session_of_printed unobtrusive asked quiet opened ended unnamed⟩
      · intro _ path named
        exact ⟨_, written.symm, session_of_named unobtrusive asked quiet opened ended named⟩

end Hosts

namespace Directory

/-- A run in a directory ends as a conversion to a sink without an end does. -/
structure Agrees (files : List (String × List UInt8)) (output : Option String)
    (converted : Delivery) (ended : Nat × Directory) : Prop where
  refused : ∀ failure, converted.result = .error failure →
    ended = (1, ⟨files, "", "Failure: " ++ failure.message ++ ".\n"⟩)
  printed : converted.result = .ok () → output = none →
    ∃ text, Text.bytes text = converted.written ∧ ended = (0, ⟨files, text, ""⟩)
  stored : converted.result = .ok () → ∀ path name, output = some path →
    sinkFor ⟨files, "", ""⟩ path = .ok (.file name) →
      ended = (0, ⟨replace name converted.written files, "", ""⟩) ∧
        ended.2.contentOf path = .ok (.bytes converted.written)
  /-- The output may be something else than a file of the directory. -/
  filled : converted.result = .ok () → ∀ path sink, output = some path →
    sinkFor ⟨files, "", ""⟩ path = .ok sink → ∃ text, Text.bytes text = converted.written ∧
      ∀ after, fill ⟨files, "", ""⟩ text sink = .ok after → ended = (0, after)
  uncreated : converted.result = .ok () → ∀ path reason, output = some path →
    sinkFor ⟨files, "", ""⟩ path = .error reason →
      ended = (1, ⟨files, "", "Failure: " ++ (DeviceFault.unopenable path reason).message ++ ".\n"⟩)

theorem failureLine_device (fault : DeviceFault) :
    failureLine (.device fault) = "Failure: " ++ fault.message ++ ".\n" :=
  rfl

theorem agrees_of_follows {files : List (String × List UInt8)} {output : Option String}
    {converted : Delivery} {ended : Nat × Directory}
    (follows : Follows host ⟨files, "", ""⟩ output converted ended) :
    Agrees files output converted ended where
  refused failure refused := by
    rw [follows.refused failure refused]
    simp [reported_eq, Directory.report, failureLine]
  printed accepted unnamed := by
    obtain ⟨text, written, rfl⟩ := follows.printed accepted unnamed
    exact ⟨text, written, by simp [printed_eq, Directory.print]⟩
  stored accepted path name named created := by
    obtain ⟨text, written, rfl⟩ := follows.stored accepted path named
    have filled : host.stored path text ⟨files, "", ""⟩ =
        (0, store ⟨files, "", ""⟩ name converted.written) := by
      rw [stored_eq, created, ← written]
      rfl
    rw [filled]
    exact ⟨rfl, contentOf_store _ created⟩
  filled accepted path sink named created := by
    obtain ⟨text, written, rfl⟩ := follows.stored accepted path named
    refine ⟨text, written, fun after filled => ?_⟩
    rw [stored_eq, created]
    dsimp only
    rw [filled]
  uncreated accepted path reason named uncreated := by
    obtain ⟨text, -, rfl⟩ := follows.stored accepted path named
    rw [stored_eq, uncreated]
    simp [Directory.report, failureLine_device]

/-- Every request for a conversion without details can be made, and whenever it is made, the run
agrees with the conversion of what stands behind the mark: whoever parses the document, and whatever
is said of its markup. -/
theorem run_agrees (files : List (String × List UInt8)) {request : Request}
    (quiet : request.detail = none) :
    (∃ arguments, Toolkit.standard.task arguments = .ok (.convert request)) ∧
      ∀ (toolkit : Toolkit) arguments content, toolkit.Detects →
        toolkit.task arguments = .ok (.convert request) →
        contentOf ⟨files, "", ""⟩ request.input = .ok (.bytes content) → ¬Foreign content →
          Agrees files request.output
            (convert toolkit.parser request.header none (skip content))
            (run toolkit ⟨files, "", ""⟩ arguments) := by
  constructor
  · obtain ⟨input, output, header, detail⟩ := request
    obtain rfl : detail = none := quiet
    obtain ⟨arguments, asked⟩ := exists_arguments header input output
    exact ⟨arguments, Toolkit.task_standard asked⟩
  intro toolkit arguments content detects asked opened native
  exact agrees_of_follows (session_follows host_unobtrusive detects asked quiet opened native)

/-- A document with one slave, behind the mark of UTF-8. -/
def markedCommand : List UInt8 := [0xEF, 0xBB, 0xBF] ++ oneCommand

/-- The output is the input itself, which holds the text in the end. -/
theorem run_agrees_overwritten :
    (convert .standard Emission.defaultHeader none (skip markedCommand)).result = .ok () ∧
      sinkFor ⟨[("in.xml", markedCommand)], "", ""⟩ "in.xml" = .ok (.file "in.xml") ∧
      Agrees [("in.xml", markedCommand)] (some "in.xml")
        (convert .standard Emission.defaultHeader none (skip markedCommand))
        (run .standard ⟨[("in.xml", markedCommand)], "", ""⟩ ["in.xml", "in.xml"]) ∧
      run .standard ⟨[("in.xml", markedCommand)], "", ""⟩ ["in.xml", "in.xml"] =
        (0, ⟨[("in.xml", Text.bytes (Emission.text Emission.defaultHeader ⟨[oneSlave 1]⟩))],
          "", ""⟩) := by
  have passed : (Xml.eventsWithin? 1000 oneCommand).any (fun events =>
      (Element.ofEvents events).toOption.any fun root => decide
        ((Configuration.buildFromRoot root).result = .ok ⟨[oneSlave 1]⟩)) = true := by
    decide +kernel
  have skipped : skip markedCommand = oneCommand := by
    have marked : 4 ≤ markedCommand.length ∧ utf8.Marks markedCommand := by decide +kernel
    rw [skip, if_pos marked]
    rfl
  have asked : Toolkit.standard.task ["in.xml", "in.xml"] =
      .ok (.convert ⟨"in.xml", some "in.xml", Emission.defaultHeader, none⟩) :=
    Toolkit.task_standard (by decide)
  have native : ¬Foreign markedCommand := by
    rintro ⟨mark, other, starts⟩
    cases mark with
    | utf8 => exact other rfl
    | _ => exact absurd starts (by decide)
  have opened : contentOf ⟨[("in.xml", markedCommand)], "", ""⟩ "in.xml" =
      .ok (.bytes markedCommand) :=
    rfl
  obtain ⟨accepted, written⟩ :=
    convert_of_built Emission.defaultHeader (result_of_eventsWithin? passed)
  have agrees := (run_agrees [("in.xml", markedCommand)] rfl).2 _ _ _ Toolkit.detects_standard
    asked opened native
  have ended := (agrees.stored (skipped ▸ accepted) "in.xml" "in.xml" rfl rfl).1
  change _ = (0, Directory.mk (replace _ (convert .standard _ none _).written _) _ _) at ended
  rw [skipped, written] at ended
  exact ⟨skipped ▸ accepted, rfl, agrees, ended⟩

end Directory

end BusTables.CommandLine
