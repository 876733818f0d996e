import BusTables.CommandLine.Session
import BusTables.Proofs.CommandLine.Directory

/-!
# Runs on a host

A run of the program that reports no details is described without its single steps: where it is
refused (`session_of_refused`), and what becomes of the text of a configuration, which is printed
(`session_of_printed`) or goes where the output leads (`session_of_named`).  All that the host has
to bear out is that reading leaves no trace, and that reporting nothing leaves none.  A directory is
such a host (`Directory.host_unobtrusive`).
-/

namespace BusTables.CommandLine

/-- One action after another starts from the state that the first one leaves. -/
theorem run_bind {σ α β : Type} (first : StateM σ α) (next : α → StateM σ β) (state : σ) :
    (first >>= next).run state = (next (first.run state).1).run (first.run state).2 :=
  rfl

/-- Without a level of detail nothing is reported. -/
theorem report_none (messages : List Message) : report none messages = "" := by
  have silent : messages.filter (Message.isReported none) = [] := by
    simp [Message.isReported]
  rw [report, silent]
  rfl

section Hosts

variable {σ : Type}

/-- The state in which a host is left when a text has been printed. -/
def Host.printed (host : Host (StateM σ)) (text : String) (state : σ) : σ :=
  ((host.print text).run state).2

/-- The state in which a host is left when a text has been reported. -/
def Host.reported (host : Host (StateM σ)) (text : String) (state : σ) : σ :=
  ((host.report text).run state).2

/-- How a run ends that creates a file and fills it with a text. -/
def Host.stored (host : Host (StateM σ)) (path text : String) (state : σ) : Nat × σ :=
  match (host.create path).run state with
  | (.error reason, after) =>
      (1, host.reported (failureLine (.device (.unopenable path reason))) after)
  | (.ok _, opened) =>
      match (host.write path text).run opened with
      | (.error reason, after) =>
          (1, host.reported (failureLine (.device (.unwritable reason))) after)
      | (.ok (), after) => (0, after)

/-- Neither reading nor reporting nothing leaves a trace. -/
structure Unobtrusive (host : Host (StateM σ)) : Prop where
  read : ∀ path state, ((host.read path).run state).2 = state
  report : ∀ state, host.reported "" state = state

variable {toolkit : Toolkit} {host : Host (StateM σ)} {state : σ} {arguments : List String}
  {request : Request}

theorem session_of_convert (asked : toolkit.task arguments = .ok (.convert request)) :
    (session toolkit host arguments).run state =
      match (serve toolkit host request).run state with
      | (.ok (), after) => (0, after)
      | (.error failure, after) => (1, host.reported (failureLine failure) after) := by
  rw [session, asked]
  dsimp only
  rw [run_bind]
  obtain ⟨⟨⟩ | ⟨⟩, after⟩ := (serve toolkit host request).run state <;> rfl

variable (unobtrusive : Unobtrusive host)

include unobtrusive

/-- What is reported without a level of detail leaves no trace. -/
theorem run_report_none (messages : List Message) :
    ((host.report (report none messages)).run state).2 = state := by
  rw [report_none]
  exact unobtrusive.report state

variable (asked : toolkit.task arguments = .ok (.convert request)) (quiet : request.detail = none)

include asked quiet

theorem session_of_read {content : Content}
    (opened : ((host.read request.input).run state).1 = .ok content) :
    (session toolkit host arguments).run state =
      match (load toolkit content).result with
      | .error failure => (1, host.reported (failureLine failure) state)
      | .ok configuration =>
          match (deliverTo host request configuration).run state with
          | (.ok (), after) => (0, after)
          | (.error failure, after) => (1, host.reported (failureLine failure) after) := by
  rw [session_of_convert asked, serve, run_bind, quiet, run_report_none unobtrusive, run_bind,
    opened, unobtrusive.read]
  dsimp only
  rw [run_bind, run_report_none unobtrusive]
  cases (load toolkit content).result <;> rfl

theorem session_of_refused {content : Content} {failure : Failure}
    (opened : ((host.read request.input).run state).1 = .ok content)
    (refused : (load toolkit content).result = .error failure) :
    (session toolkit host arguments).run state =
      (1, host.reported (failureLine failure) state) := by
  rw [session_of_read unobtrusive asked quiet opened, refused]

variable {content : Content} {configuration : Configuration}
  (opened : ((host.read request.input).run state).1 = .ok content)
  (built : (load toolkit content).result = .ok configuration)

include opened built

theorem session_of_printed (unnamed : request.output = none) :
    (session toolkit host arguments).run state =
      (0, host.printed (Emission.text request.header configuration) state) := by
  rw [session_of_read unobtrusive asked quiet opened, built]
  dsimp only
  rw [deliverTo, unnamed, quiet]
  dsimp only
  rw [run_bind, run_report_none unobtrusive, run_bind]
  rfl

theorem session_of_named {output : String} (named : request.output = some output) :
    (session toolkit host arguments).run state =
      host.stored output (Emission.text request.header configuration) state := by
  rw [session_of_read unobtrusive asked quiet opened, built]
  dsimp only
  rw [deliverTo, named, quiet, Host.stored]
  dsimp only
  rw [run_bind, run_report_none unobtrusive, run_bind]
  rcases (host.create output).run state with ⟨reason | capacity, opened⟩
  · rfl
  · dsimp only
    rw [run_bind, run_report_none unobtrusive, run_bind]
    rcases (host.write output (Emission.text request.header configuration)).run opened with
      ⟨reason | ⟨⟩, after⟩ <;> rfl

end Hosts

namespace Directory

section Actions

variable (directory : Directory) (path text : String)

theorem run_report : (host.report text).run directory = ((), directory.report text) :=
  rfl

theorem reported_eq : host.reported text directory = directory.report text :=
  rfl

theorem printed_eq : host.printed text directory = directory.print text :=
  rfl

theorem run_create : (host.create path).run directory =
    match directory.sinkFor path with
    | .error reason => (.error reason, directory)
    | .ok sink => (.ok sink.capacity, directory.clear sink) := by
  dsimp only [host]
  rw [run_bind]
  dsimp only [StateT.run_get]
  cases directory.sinkFor path <;> rfl

theorem run_write : (host.write path text).run directory =
    match directory.sinkFor path >>= directory.fill text with
    | .error reason => (.error reason, directory)
    | .ok after => (.ok (), after) := by
  dsimp only [host]
  rw [run_bind]
  dsimp only [StateT.run_get]
  generalize directory.sinkFor path >>= directory.fill text = written
  cases written <;> rfl

/-- Emptying the output before it is filled leaves a trace only where filling it fails. -/
theorem stored_eq : host.stored path text directory =
    match directory.sinkFor path with
    | .error reason =>
        (1, directory.report (failureLine (.device (.unopenable path reason))))
    | .ok sink =>
        match directory.fill text sink with
        | .error reason =>
            (1, (directory.clear sink).report (failureLine (.device (.unwritable reason))))
        | .ok after => (0, after) := by
  rw [Host.stored, run_create]
  cases created : directory.sinkFor path with
  | error reason => rfl
  | ok sink =>
      dsimp only
      rw [run_write, fill_clear created]
      cases directory.fill text sink <;> rfl

end Actions

theorem host_unobtrusive : Unobtrusive host where
  read _ _ := rfl
  report directory := by simp [reported_eq, report]

/-- The code of a run in a directory, and the directory afterwards. -/
def run (toolkit : Toolkit) (directory : Directory) (arguments : List String) : Nat × Directory :=
  (session toolkit host arguments).run directory

theorem run_of_refused {toolkit : Toolkit} {directory : Directory} {arguments : List String}
    {request : Request} {content : Content} {failure : Failure}
    (asked : toolkit.task arguments = .ok (.convert request)) (quiet : request.detail = none)
    (opened : directory.contentOf request.input = .ok content)
    (refused : (load toolkit content).result = .error failure) :
    run toolkit directory arguments = (1, directory.report (failureLine failure)) :=
  session_of_refused host_unobtrusive asked quiet opened refused

end Directory

end BusTables.CommandLine
