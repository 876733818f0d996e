import BusTables.CommandLine.Host
import BusTables.Text.Bytes

/-!
# Directories as hosts

A working directory that holds files and no other directory is a host: reading and creating follow
a path part by part, and what is printed and reported is kept.  Of what lies around the working
directory only that is known which every machine has, and what is written there is not kept.
-/

namespace BusTables.CommandLine

/-- A working directory, and what has been printed and reported in it. -/
structure Directory where
  files : List (String × List UInt8)
  printed : String
  reported : String
  deriving DecidableEq, Repr

namespace Directory

/-- What a path leads to. -/
inductive Location where
  /-- A file of the working directory. -/
  | file (name : String)
  /-- The working directory. -/
  | working
  /-- A directory around the working directory. -/
  | surrounding
  /-- What every machine has at a place that is given from the root on. -/
  | absolute (place : List String)
  deriving DecidableEq, Repr

/-- Where a file that is created keeps its bytes. -/
inductive Sink where
  /-- A file of the working directory. -/
  | file (name : String)
  /-- The channel for what is printed. -/
  | printed
  /-- The channel for what is reported. -/
  | reported
  /-- A device that keeps nothing and fails. -/
  | full
  /-- Somewhere out of sight. -/
  | elsewhere
  deriving DecidableEq, Repr

/-- A failure to write shows only after so many bytes. -/
def bufferSize : Nat := 8192

/-- The room that a sink is known to have. -/
def Sink.capacity : Sink → Capacity
  | .full => some bufferSize
  | _ => none

namespace Location

/-- The directories that every machine has. -/
def commonDirectories : List (List String) :=
  [[], ["bin"], ["boot"], ["dev"], ["etc"], ["home"], ["lib"], ["lib64"], ["media"], ["mnt"],
    ["opt"], ["proc"], ["root"], ["run"], ["sbin"], ["srv"], ["sys"], ["tmp"], ["usr"], ["var"],
    ["dev", "pts"], ["dev", "shm"], ["proc", "self"], ["proc", "self", "fd"], ["usr", "bin"],
    ["usr", "lib"], ["usr", "local"], ["usr", "share"], ["var", "lib"], ["var", "log"],
    ["var", "tmp"]]

/-- The place of an open channel of the program, by the number of the channel. -/
def channelPlace (number : String) : List String := ["proc", "self", "fd", number]

/-- The place of the device that is always full. -/
def fullPlace : List String := ["dev", "full"]

/-- The place of the terminal, which a program that runs by itself does not have. -/
def terminalPlace : List String := ["dev", "tty"]

/-- The devices and files that every machine has; none of them holds a document. -/
def commonFiles : List (List String) :=
  [channelPlace "0", channelPlace "1", channelPlace "2", fullPlace, terminalPlace,
    ["dev", "null"], ["dev", "zero"], ["dev", "random"], ["dev", "urandom"], ["etc", "passwd"],
    ["etc", "group"], ["etc", "hosts"], ["proc", "version"], ["proc", "cpuinfo"],
    ["proc", "meminfo"], ["proc", "self", "status"]]

/-- The places that only lead elsewhere. -/
def commonLinks : List (List String × Location) :=
  [(["dev", "fd"], .absolute ["proc", "self", "fd"]),
    (["dev", "stdin"], .absolute (channelPlace "0")),
    (["dev", "stdout"], .absolute (channelPlace "1")),
    (["dev", "stderr"], .absolute (channelPlace "2")),
    (["proc", "self", "cwd"], .working),
    (["proc", "self", "root"], .absolute [])]

/-- What every machine has at a place. -/
def common? (place : List String) : Option Location :=
  match commonLinks.lookup place with
  | some location => some location
  | none =>
      if commonDirectories.contains place || commonFiles.contains place then
        some (.absolute place)
      else none

/-- Paths go on from directories. -/
def isDirectory : Location → Bool
  | .file _ => false
  | .working => true
  | .surrounding => true
  | .absolute place => commonDirectories.contains place

/-- The directory that holds a directory. -/
def parent : Location → Location
  | .absolute place => .absolute place.dropLast
  | _ => .surrounding

/-- Why what lies there cannot be opened. -/
def openFault? (location : Location) : Option SystemFault :=
  if location = .absolute terminalPlace then some .noDevice else none

/-- Why no file can be created in a directory: the system alone says what some of them hold. -/
def creationFault? : Location → Option SystemFault
  | .absolute ("proc" :: _) => some .notFound
  | .absolute ("sys" :: _) => some .notPermitted
  | .absolute ["dev", "pts"] => some .notPermitted
  | _ => none

/-- Where what is written to something that is no directory goes. -/
def sink : Location → Sink
  | .file name => .file name
  | .absolute place =>
      if place = channelPlace "1" then .printed
      else if place = channelPlace "2" then .reported
      else if place = fullPlace then .full
      else .elsewhere
  | _ => .elsewhere

end Location

/-- A longer part of a path, in bytes, is no name. -/
def longestPart : Nat := 255

/-- A longer path, in bytes, is not looked up at all. -/
def longestPath : Nat := 4095

/-- The parts of a path, which slashes separate. -/
def partsOf (path : String) : List String :=
  (path.toList.splitOn '/').map String.ofList

/-- Where the first part of a path is looked up: an absolute path has an empty first part. -/
def startOf (path : String) : Location :=
  if path.toList.head? = some '/' then .absolute [] else .working

/-- What a directory holds under a name. -/
def entry? (directory : Directory) (location : Location) (name : String) : Option Location :=
  match location with
  | .working => if (directory.files.lookup name).isSome then some (.file name) else none
  | .absolute place => Location.common? (place ++ [name])
  | _ => none

/-- Where one part of a path leads. -/
def step (directory : Directory) (location : Location) (part : String) :
    Except SystemFault Location :=
  if !location.isDirectory then .error .notDirectory
  else if part = "" ∨ part = "." then .ok location
  else if part = ".." then .ok location.parent
  else if longestPart < (Text.bytes part).length then .error .nameTooLong
  else
    match directory.entry? location part with
    | some location => .ok location
    | none => .error .notFound

/-- Where the parts of a path lead, from the first to the last. -/
def walk (directory : Directory) (location : Location) (parts : List String) :
    Except SystemFault Location :=
  parts.foldlM directory.step location

/-- The fault of a path that is not looked up. -/
def pathFault? (path : String) : Option SystemFault :=
  if path.isEmpty then some .notFound
  else if longestPath < (Text.bytes path).length then some .nameTooLong
  else none

/-- What opening a path for reading gives. -/
def contentOf (directory : Directory) (path : String) : Except SystemFault Content := do
  match pathFault? path with
  | some fault => .error fault
  | none =>
      let location ← directory.walk (startOf path) (partsOf path)
      match location.openFault?, location with
      | some fault, _ => .error fault
      | none, .file name => return .bytes ((directory.files.lookup name).getD [])
      | none, _ => return .unreadable

/--
Where creating the last part of a path leads.  `isClosed` tells that slashes follow, which make
the part the name of a directory without a look at what has the name.
-/
def sinkAt (directory : Directory) (location : Location) (isClosed : Bool) (part : String) :
    Except SystemFault Sink :=
  if !location.isDirectory then .error .notDirectory
  else if isClosed ∨ part = "." ∨ part = ".." then .error .isDirectory
  else if longestPart < (Text.bytes part).length then .error .nameTooLong
  else
    match directory.entry? location part with
    | some found =>
        if found.isDirectory then .error .isDirectory
        else
          match found.openFault? with
          | some fault => .error fault
          | none => .ok found.sink
    | none =>
        match location.creationFault? with
        | some fault => .error fault
        | none => .ok (if location = .working then .file part else .elsewhere)

/-- Where creating a path leads. -/
def sinkFor (directory : Directory) (path : String) : Except SystemFault Sink := do
  match pathFault? path with
  | some fault => .error fault
  | none =>
      let parts := (partsOf path).reverse
      match parts.dropWhile (·.isEmpty) with
      | [] => .error .isDirectory
      | last :: outer =>
          let location ← directory.walk (startOf path) outer.reverse
          directory.sinkAt location (parts.head? == some "") last

/-- The files with the bytes of one of them replaced, or with one more file. -/
def replace (name : String) (bytes : List UInt8) :
    List (String × List UInt8) → List (String × List UInt8)
  | [] => [(name, bytes)]
  | (other, content) :: later =>
      if other = name then (name, bytes) :: later
      else (other, content) :: replace name bytes later

/-- The directory with the bytes of a file replaced. -/
def store (directory : Directory) (name : String) (bytes : List UInt8) : Directory :=
  { directory with files := replace name bytes directory.files }

/-- The directory with a file emptied, or with one more file. -/
def clear (directory : Directory) : Sink → Directory
  | .file name => directory.store name []
  | _ => directory

/-- The directory with a text behind what has been printed. -/
def print (directory : Directory) (text : String) : Directory :=
  { directory with printed := directory.printed ++ text }

/-- The directory with a text behind what has been reported. -/
def report (directory : Directory) (text : String) : Directory :=
  { directory with reported := directory.reported ++ text }

/-- The directory after a text has been written. -/
def fill (directory : Directory) (text : String) : Sink → Except SystemFault Directory
  | .file name => .ok (directory.store name (Text.bytes text))
  | .printed => .ok (directory.print text)
  | .reported => .ok (directory.report text)
  | .full => .error .noSpace
  | .elsewhere => .ok directory

/-- The directory as a host. -/
def host : Host (StateM Directory) where
  read path := do return (← get).contentOf path
  create path := do
    match (← get).sinkFor path with
    | .error fault => return .error fault
    | .ok sink =>
        modify (·.clear sink)
        return .ok sink.capacity
  write path text := do
    let directory ← get
    match directory.sinkFor path >>= directory.fill text with
    | .error fault => return .error fault
    | .ok directory =>
        set directory
        return .ok ()
  print text := modify (·.print text)
  report text := modify (·.report text)

end Directory

end BusTables.CommandLine
