import BusTables.Proofs.CommandLine.Marks
import BusTables.Proofs.CommandLine.Runs
import BusTables.Proofs.Conversion.Complete

/-!
# Failing runs leave no trace

A host is discreet about what it keeps if only creating, writing and printing touch that, and if
neither a creation that is refused nor a writing that fails leaves a trace.  A run reads and checks
its whole input before it creates its output, and prints only what it has made, so on a discreet
host a run that fails leaves all that is kept as it was (`Discreet.spares_session`).  A directory is
discreet about its files and about what is printed (`Directory.run_discreet`).
-/

namespace BusTables.CommandLine

section Sparing

variable {σ κ α β : Type}

/-- Whatever an action ends with, what is kept stays as it was. -/
def Keeps (kept : σ → κ) (action : StateM σ α) : Prop :=
  ∀ state, kept (action.run state).2 = kept state

/-- If an action fails, what is kept stays as it was. -/
def Spares (kept : σ → κ) (failed : α → Prop) (action : StateM σ α) : Prop :=
  ∀ state, failed (action.run state).1 → kept (action.run state).2 = kept state

variable {kept : σ → κ} {failed : α → Prop}

theorem Keeps.pure (value : α) : Keeps kept (pure value : StateM σ α) :=
  fun _ => rfl

theorem Spares.pure (value : α) : Spares kept failed (pure value : StateM σ α) :=
  fun _ _ => rfl

theorem Keeps.bind {first : StateM σ β} {next : β → StateM σ α} (keeps : Keeps kept first)
    (rest : ∀ value, Keeps kept (next value)) : Keeps kept (first >>= next) := by
  intro state
  rw [run_bind]
  exact (rest _ _).trans (keeps state)

theorem Keeps.bind_spares {first : StateM σ β} {next : β → StateM σ α} (keeps : Keeps kept first)
    (rest : ∀ value, Spares kept failed (next value)) : Spares kept failed (first >>= next) := by
  intro state isFailed
  rw [run_bind] at isFailed ⊢
  exact (rest _ _ isFailed).trans (keeps state)

/-- What happens after a failure keeps, and what happens after a success does not fail. -/
theorem Spares.bind {first : StateM σ β} {next : β → StateM σ α} {unmet : β → Prop}
    (spares : Spares kept unmet first) (refused : ∀ value, unmet value → Keeps kept (next value))
    (done : ∀ value, ¬unmet value → ∀ state, ¬failed ((next value).run state).1) :
    Spares kept failed (first >>= next) := by
  intro state isFailed
  rw [run_bind] at isFailed ⊢
  by_cases ended : unmet (first.run state).1
  · exact (refused _ ended _).trans (spares state ended)
  · exact absurd isFailed (done _ ended _)

end Sparing

section Hosts

variable {σ κ : Type} {host : Host (StateM σ)} {kept : σ → κ}

/-- What is kept is touched only where a file is created and filled, or something is printed. -/
structure Discreet (host : Host (StateM σ)) (kept : σ → κ) : Prop where
  read : ∀ path, Keeps kept (host.read path)
  report : ∀ text, Keeps kept (host.report text)
  refused : ∀ {path state reason after}, (host.create path).run state = (.error reason, after) →
    kept after = kept state
  unwritten : ∀ {path remark text state capacity created reason after},
    (host.create path).run state = (.ok capacity, created) →
      (host.write path text).run ((host.report remark).run created).2 = (.error reason, after) →
        kept after = kept state

/-- A conversion has failed. -/
def IsRefused (result : Except Failure Unit) : Prop := ∃ failure, result = .error failure

namespace Discreet

variable (discreet : Discreet host kept)

include discreet

theorem spares_deliverTo (request : Request) (configuration : Configuration) :
    Spares kept IsRefused (deliverTo host request configuration) := by
  unfold deliverTo
  dsimp only
  split
  · refine (discreet.report _).bind_spares fun _ state => ?_
    rintro ⟨failure, ended⟩
    cases ended
  · rename_i output named
    refine (discreet.report _).bind_spares fun _ state => ?_
    rintro ⟨failure, ended⟩
    -- Only the host can fail here: it refuses the creation, or the writing behind it fails.
    rw [run_bind] at ended ⊢
    rcases created : (host.create output).run state with ⟨reason | capacity, opened⟩
    · exact discreet.refused created
    · rw [created] at ended
      dsimp only at ended ⊢
      rw [run_bind, run_bind] at ended ⊢
      rcases written : (host.write output (Emission.text request.header configuration)).run
        ((host.report (CommandLine.report request.detail
          (deliver capacity (Emission.parts request.header configuration)).messages)).run opened).2
        with ⟨reason | ⟨⟩, after⟩
      · exact discreet.unwritten created written
      · rw [written] at ended
        cases ended

theorem spares_serve (toolkit : Toolkit) (request : Request) :
    Spares kept IsRefused (serve toolkit host request) := by
  refine (discreet.report _).bind_spares fun _ => (discreet.read _).bind_spares fun content => ?_
  cases content with
  | error reason => exact .pure _
  | ok content =>
      refine (discreet.report _).bind_spares fun _ => ?_
      cases (load toolkit content).result with
      | error failure => exact .pure _
      | ok configuration => exact discreet.spares_deliverTo request configuration

/-- A run that ends with a code other than zero leaves no trace. -/
theorem spares_session (toolkit : Toolkit) (arguments : List String) :
    Spares kept (· ≠ 0) (session toolkit host arguments) := by
  unfold session
  split
  · exact (discreet.report _).bind_spares fun _ => .pure 1
  · exact fun _ failed => absurd rfl failed
  · exact fun _ failed => absurd rfl failed
  · rename_i request asked
    refine (discreet.spares_serve toolkit request).bind ?_ ?_
    · rintro _ ⟨failure, rfl⟩
      exact (discreet.report _).bind fun _ => .pure 1
    · rintro (failure | ⟨⟩) done state
      · exact absurd ⟨failure, rfl⟩ done
      · exact fun failed => failed rfl

end Discreet

end Hosts

namespace Directory

/-- The files and what has been printed. -/
def kept (directory : Directory) : List (String × List UInt8) × String :=
  (directory.files, directory.printed)

/-- What is reported changes nothing about where a path leads. -/
theorem sinkFor_report (directory : Directory) (text path : String) :
    (directory.report text).sinkFor path = directory.sinkFor path :=
  rfl

theorem report_clear (directory : Directory) (text : String) (sink : Sink) :
    (directory.clear sink).report text = (directory.report text).clear sink := by
  cases sink <;> rfl

theorem host_discreet : Discreet host kept where
  read _ _ := rfl
  report _ _ := rfl
  refused := by
    intro path directory reason after refused
    rw [run_create] at refused
    cases created : directory.sinkFor path with
    | error fault =>
        rw [created] at refused
        cases refused
        rfl
    | ok sink =>
        rw [created] at refused
        cases refused
  unwritten := by
    intro path remark text directory capacity opened reason after created unwritten
    rw [run_create] at created
    cases known : directory.sinkFor path with
    | error fault =>
        rw [known] at created
        cases created
    | ok sink =>
        rw [known] at created
        cases created
        rw [run_report, run_write, report_clear,
          fill_clear ((sinkFor_report directory remark path).trans known)] at unwritten
        -- Only the device that is always full fails, and emptying it changes nothing.
        cases sink with
        | full =>
            cases unwritten
            rfl
        | _ => cases unwritten

/-- A run that ends with a code other than zero leaves the files as they were, and nothing has been
printed, whatever was asked for, whoever told what that is, and wherever it failed. -/
theorem run_discreet (toolkit : Toolkit) (directory : Directory) (arguments : List String)
    (failed : (run toolkit directory arguments).1 ≠ 0) :
    (run toolkit directory arguments).2.files = directory.files ∧
      (run toolkit directory arguments).2.printed = directory.printed :=
  Prod.mk.inj (host_discreet.spares_session toolkit arguments directory failed)

/-- A command with some data, as it is written. -/
def commandWith (data : List Char) : List Char :=
  tagged "InitCmd" (
    tagged "Transition" ['P', 'S'] ++ tagged "Ccs" ['1'] ++ tagged "Index" ['2'] ++
      tagged "SubIndex" ['0'] ++ tagged "Timeout" ['5'] ++ tagged "Data" data)

/-- A document with two commands, the last of which has half a byte of data. -/
def halfByte : List UInt8 :=
  Text.bytesOf (tagged "EtherCATConfig" (tagged "Config" (tagged "Slave" (
    tagged "Info" (tagged "VendorId" ['2'] ++ tagged "ProductCode" ['1'] ++
      tagged "RevisionNo" ['3']) ++
    tagged "Mailbox" (tagged "CoE" (tagged "InitCmds"
      (commandWith ['0', 'a'] ++ commandWith ['0'])))))))

/-- The output that exists already is left as it was. -/
theorem run_discreet_halfByte :
    (run .standard ⟨[("in.xml", halfByte), ("out.c", [0x0A])], "", ""⟩
        ["in.xml", "out.c"]).1 ≠ 0 ∧
      (run .standard ⟨[("in.xml", halfByte), ("out.c", [0x0A])], "", ""⟩
          ["in.xml", "out.c"]).2.files = [("in.xml", halfByte), ("out.c", [0x0A])] ∧
      (run .standard ⟨[("in.xml", halfByte), ("out.c", [0x0A])], "", ""⟩
        ["in.xml", "out.c"]).2.printed = "" := by
  have passed : (Xml.eventsWithin? 2000 halfByte).any (fun events =>
      (Element.ofEvents events).toOption.any fun root => decide
        ((Configuration.buildFromRoot root).result =
          .error (.value (.payload .oddLength)))) = true := by
    decide +kernel
  have refused : (load .standard (.bytes halfByte)).result =
      .error (.value (.payload .oddLength)) := by
    rw [load_of_unmarked (show Toolkit.standard.mark? halfByte = none by decide)]
    exact result_of_eventsWithin? passed
  have asked : Toolkit.standard.task ["in.xml", "out.c"] =
      .ok (.convert ⟨"in.xml", some "out.c", Emission.defaultHeader, none⟩) :=
    Toolkit.task_standard (by decide)
  have failed : (run .standard ⟨[("in.xml", halfByte), ("out.c", [0x0A])], "", ""⟩
      ["in.xml", "out.c"]).1 ≠ 0 := by
    rw [run_of_refused asked rfl rfl refused]
    exact Nat.one_ne_zero
  exact ⟨failed, run_discreet _ _ _ failed⟩

end Directory

end BusTables.CommandLine
