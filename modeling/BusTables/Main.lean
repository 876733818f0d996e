import BusTables.CommandLine.Session

/-!
# The program

The program runs a session on the machine that it is started on.
-/

namespace BusTables

open CommandLine

/-- The fault behind an error of the system. -/
def systemFault : IO.Error → SystemFault
  | .noFileOrDirectory _ code _ => ⟨SystemFault.notFound.description, code.toNat⟩
  | .permissionDenied _ code _ => ⟨SystemFault.notPermitted.description, code.toNat⟩
  | .resourceExhausted _ code _ => ⟨SystemFault.noSpace.description, code.toNat⟩
  | .inappropriateType _ code _ =>
      if code.toNat = SystemFault.notDirectory.code then .notDirectory else .isDirectory
  | error => ⟨toString error, 0⟩

/-- A file of the machine, opened and read. -/
def readFile (name : String) : IO (Except SystemFault Content) := do
  match ← (IO.FS.Handle.mk name .read).toBaseIO with
  | .error error => return .error (systemFault error)
  | .ok _ =>
      match ← (IO.FS.readBinFile name).toBaseIO with
      | .error _ => return .ok .unreadable
      | .ok bytes => return .ok (.bytes bytes.toList)

/-- A file of the machine, created or emptied. -/
def createFile (name : String) : IO (Except SystemFault Capacity) := do
  match ← (IO.FS.Handle.mk name .write).toBaseIO with
  | .error error => return .error (systemFault error)
  | .ok _ => return .ok none

/-- A file of the machine, filled. -/
def fillFile (name text : String) : IO (Except SystemFault Unit) := do
  match ← (IO.FS.writeFile name text).toBaseIO with
  | .error error => return .error (systemFault error)
  | .ok () => return .ok ()

/-- The machine as a host. -/
def machine : Host IO where
  read := readFile
  create := createFile
  write := fillFile
  print := IO.print
  report := IO.eprint

end BusTables

/-- Runs the program with its arguments. -/
def main (arguments : List String) : IO UInt32 := do
  let code ← BusTables.CommandLine.session .standard BusTables.machine arguments
  return UInt32.ofNat code
