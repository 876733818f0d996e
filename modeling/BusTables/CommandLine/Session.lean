import BusTables.CommandLine.Host
import BusTables.CommandLine.Toolkit

/-!
# Sessions

A session is one run of the program with its arguments, on a host and with a toolkit.  The input is
read and checked as a whole before the output is created.  A session ends with a code, which is zero
if it did what it was asked for; otherwise the reason has been reported.
-/

namespace BusTables.CommandLine

/-- The configuration in a file, unless the file announces an encoding that is not supported. -/
def load (toolkit : Toolkit) : Content → Traced Configuration
  | .unreadable => Traced.ofExcept (.error (.markup toolkit.parser.unreadable))
  | .bytes bytes =>
      match toolkit.mark? bytes with
      | none => Configuration.buildFromContent toolkit.parser bytes
      | some .utf8 => Configuration.buildFromContent toolkit.parser (bytes.drop 3)
      | some mark => Traced.ofExcept (.error (.device (.encoding mark)))

/-- The lines that are reported of some messages. -/
def report (detail : Option Level) (messages : List Message) : String :=
  String.join ((messages.filter (Message.isReported detail)).map Message.line)

variable {m : Type → Type} [Monad m]

/-- The text for a configuration goes to the output. -/
def deliverTo (host : Host m) (request : Request) (configuration : Configuration) :
    m (Except Failure Unit) := do
  let text := Emission.text request.header configuration
  let parts := Emission.parts request.header configuration
  match request.output with
  | none =>
      host.report (report request.detail (deliver none parts).messages)
      host.print text
      return .ok ()
  | some output =>
      host.report (report request.detail [.writing output])
      match ← host.create output with
      | .error reason => return .error (.device (.unopenable output reason))
      | .ok capacity =>
          host.report (report request.detail (deliver capacity parts).messages)
          match ← host.write output text with
          | .error reason => return .error (.device (.unwritable reason))
          | .ok () => return .ok ()

/-- The conversion that a request asks for. -/
def serve (toolkit : Toolkit) (host : Host m) (request : Request) : m (Except Failure Unit) := do
  host.report (report request.detail [.processing request.input])
  match ← host.read request.input with
  | .error reason => return .error (.device (.unopenable request.input reason))
  | .ok content =>
      let built := load toolkit content
      host.report (report request.detail built.messages)
      match built.result with
      | .error failure => return .error failure
      | .ok configuration => deliverTo host request configuration

/-- The line in which a failure is reported. -/
def failureLine (failure : Failure) : String := "Failure: " ++ failure.message ++ ".\n"

/-- A run of the program with some arguments; the result is its exit code. -/
def session (toolkit : Toolkit) (host : Host m) (arguments : List String) : m Nat := do
  match toolkit.task arguments with
  | .error reason =>
      host.report reason
      return 1
  | .ok .version =>
      host.print toolkit.banner
      return 0
  | .ok .help =>
      host.print toolkit.manual
      return 0
  | .ok (.convert request) =>
      match ← serve toolkit host request with
      | .ok () => return 0
      | .error failure =>
          host.report (failureLine failure)
          return 1

end BusTables.CommandLine
