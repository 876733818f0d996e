import BusTables.ByteOrderMark
import BusTables.CommandLine.Request
import BusTables.Xml.Reading

/-!
# Toolkits

A run leaves three things to others: reading a document, telling the encoding that a file announces
by its first bytes, and reading the arguments, with the texts that tell how they are to be given.
Together these are its toolkit.
-/

namespace BusTables.CommandLine

/-- What a run leaves to others. -/
structure Toolkit where
  parser : Xml.Parser
  /-- The encoding that a file announces. -/
  mark? : List UInt8 → Option ByteOrderMark
  /-- What arguments ask for; where they make no request, what is reported about them. -/
  task : List String → Except String Task
  /-- The name and the version of the program. -/
  banner : String
  /-- What the arguments mean. -/
  manual : String

namespace Toolkit

/-- The name and the version of the program. -/
def standardBanner : String := "eniconv 0.1\n"

/-- How the arguments are to be given. -/
def usage : String := "eniconv [FLAGS] [OPTIONS] <ENI> [OUTFILE]"

/-- What the arguments mean. -/
def standardManual : String :=
  standardBanner ++ "Convert an ENI file to a C file suited for an SOEM application.\n\n" ++
    "USAGE:\n    " ++ usage ++ "\n\n" ++
    "FLAGS:\n" ++
    "    -h, --help       Prints help information\n" ++
    "    -V, --version    Prints version information\n" ++
    "    -v, --verbose    Be more verbose\n\n" ++
    "OPTIONS:\n" ++
    "    -I, --include <HEADER>    Header to include at the top of the C file\n\n" ++
    "ARGS:\n" ++
    "    <ENI>        The ENI file to convert\n" ++
    "    <OUTFILE>    The output C file; standard output if omitted\n"

end Toolkit

/-- What is reported about arguments that make no request. -/
def UsageFault.message (fault : UsageFault) : String :=
  let reason :=
    match fault with
    | .unknownArgument argument =>
        "Found argument '" ++ argument ++ "' which wasn't expected, or isn't valid in this context"
    | .missingHeader =>
        "The argument '--include <HEADER>' requires a value but none was supplied"
    | .repeatedHeader =>
        "The argument '--include <HEADER>' was provided more than once, but cannot be used " ++
          "multiple times"
    | .missingInput => "The following required arguments were not provided:\n    <ENI>"
  "error: " ++ reason ++ "\n\nUSAGE:\n    " ++ Toolkit.usage ++
    "\n\nFor more information try --help\n"

namespace Toolkit

/-- The toolkit that the program is made with. -/
def standard : Toolkit where
  parser := .standard
  mark? := ByteOrderMark.ofContent?
  task arguments := (Task.ofArguments arguments).mapError UsageFault.message
  banner := standardBanner
  manual := standardManual

theorem task_standard {arguments : List String} {task : Task}
    (asked : Task.ofArguments arguments = .ok task) : standard.task arguments = .ok task :=
  congrArg (Except.mapError UsageFault.message) asked

end Toolkit

end BusTables.CommandLine
