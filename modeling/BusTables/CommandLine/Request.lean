import BusTables.Emission

/-!
# Requests on the command line

The arguments name an input, possibly an output, and options.  An option is a word behind two
dashes or letters behind one; the header may be given behind an equals sign, in the same
argument, or as the next one, unless that starts with a dash itself.  Behind `--` there are no
options.  Asking for the version or for help settles the matter at once.
-/

namespace BusTables.CommandLine

/-- What a run is asked to convert. -/
structure Request where
  input : String
  /-- The file to be written; without it the text is printed. -/
  output : Option String
  header : String
  /-- The level of detail up to which messages are reported. -/
  detail : Option Level
  deriving DecidableEq, Repr

/-- What a run is asked for. -/
inductive Task where
  | convert (request : Request)
  | version
  | help
  deriving DecidableEq, Repr

/-- Why the arguments make no request. -/
inductive UsageFault where
  | unknownArgument (argument : String)
  | missingHeader
  | repeatedHeader
  | missingInput
  deriving DecidableEq, Repr

/-- The arguments that have been read. -/
structure Arguments where
  files : List String
  /-- The headers given, in reverse; none where an option lacks its value. -/
  headers : List (Option String)
  verbosity : Nat
  deriving DecidableEq, Repr

/-- What letters behind a dash, or a word behind two, lead to. -/
inductive Reading where
  /-- The next argument is looked at. -/
  | next (arguments : Arguments)
  /-- The next argument may be the header. -/
  | header (arguments : Arguments)
  | task (task : Task)
  deriving DecidableEq, Repr

namespace Arguments

/-- No arguments. -/
def empty : Arguments := ⟨[], [], 0⟩

/-- One more request for detail. -/
def louder (arguments : Arguments) : Arguments :=
  { arguments with verbosity := arguments.verbosity + 1 }

/-- One more header, or an option that lacks it. -/
def withHeader (arguments : Arguments) (header : Option String) : Arguments :=
  { arguments with headers := header :: arguments.headers }

/-- The header option with the value behind its name, or with none yet. -/
def header (arguments : Arguments) : Option (List Char) → Reading
  | some value =>
      .next (arguments.withHeader (some (String.ofList (value.dropWhile (· == '=')))))
  | none => .header arguments

/-- The letters behind a single dash. -/
def letters (arguments : Arguments) : List Char → Except UsageFault Reading
  | [] => .ok (.next arguments)
  | letter :: later =>
      if letter = 'I' then
        .ok (arguments.header (if later.isEmpty then none else some later))
      else if letter = 'v' then arguments.louder.letters later
      else if letter = 'V' then .ok (.task .version)
      else if letter = 'h' then .ok (.task .help)
      else .error (.unknownArgument (String.ofList ['-', letter]))

/-- The word behind two dashes, and the value behind an equals sign. -/
def word (arguments : Arguments) (name : List Char) (value : Option (List Char)) :
    Except UsageFault Reading :=
  if name = "include".toList then .ok (arguments.header value)
  else if name = "verbose".toList then .ok (.next arguments.louder)
  else if name = "version".toList then .ok (.task .version)
  else if name = "help".toList then .ok (.task .help)
  else .error (.unknownArgument (String.ofList ('-' :: '-' :: name)))

/-- An argument that starts with a dash, given without its dashes. -/
def option (arguments : Arguments) (isWord : Bool) (body : List Char) :
    Except UsageFault Reading :=
  if isWord then
    arguments.word (body.takeWhile (· != '='))
      (match body.dropWhile (· != '=') with
        | [] => none
        | _ :: value => some value)
  else arguments.letters body

/-- One more file; there may be two. -/
def withFile (arguments : Arguments) (file : String) : Except UsageFault Arguments :=
  if arguments.files.length < 2 then
    .ok { arguments with files := arguments.files ++ [file] }
  else .error (.unknownArgument file)

/-- The level of detail that has been asked for. -/
def detail (arguments : Arguments) : Option Level :=
  match arguments.verbosity with
  | 0 => none
  | 1 => some .info
  | 2 => some .debug
  | _ => some .trace

/-- The header that has been asked for. -/
def chosenHeader (arguments : Arguments) : Except UsageFault String :=
  match arguments.headers with
  | [] => .ok Emission.defaultHeader
  | [some header] => .ok header
  | [none] => .error .missingHeader
  | _ => .error .repeatedHeader

/-- The request that all arguments make. -/
def request (arguments : Arguments) : Except UsageFault Request := do
  let header ← arguments.chosenHeader
  match arguments.files with
  | [input] => return ⟨input, none, header, arguments.detail⟩
  | [input, output] => return ⟨input, some output, header, arguments.detail⟩
  | _ => .error .missingInput

/-- An argument is a word option, a letter option, or neither. -/
def isOption (argument : List Char) : Bool :=
  argument.head? == some '-' && argument != ['-']

/-- The files behind `--`. -/
def withFiles (arguments : Arguments) : List String → Except UsageFault Arguments
  | [] => .ok arguments
  | file :: later => do
      let arguments ← arguments.withFile file
      arguments.withFiles later

/--
The task that the remaining arguments lead to.  `awaiting` tells that the header option has been
met and its value may come next.
-/
def task (arguments : Arguments) (awaiting : Bool) : List String → Except UsageFault Task
  | [] => do
      let arguments := if awaiting then arguments.withHeader none else arguments
      let request ← arguments.request
      return .convert request
  | argument :: later =>
      if isOption argument.toList then do
        let arguments := if awaiting then arguments.withHeader none else arguments
        if argument = "--" then
          let arguments ← arguments.withFiles later
          let request ← arguments.request
          return .convert request
        else
          let isWord := argument.toList.take 2 == ['-', '-']
          match ← arguments.option isWord (argument.toList.dropWhile (· == '-')) with
          | .next arguments => arguments.task false later
          | .header arguments => arguments.task true later
          | .task task => return task
      else if awaiting then (arguments.withHeader (some argument)).task false later
      else do
        let arguments ← arguments.withFile argument
        arguments.task false later

end Arguments

/-- The task that arguments ask for. -/
def Task.ofArguments (arguments : List String) : Except UsageFault Task :=
  Arguments.empty.task false arguments

end BusTables.CommandLine
