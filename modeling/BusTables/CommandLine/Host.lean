import BusTables.Conversion

/-!
# Hosts

A host is what a run of the program sees of its surroundings: files that it reads and creates,
a channel for the text that it prints, and a channel for what it reports.
-/

namespace BusTables.CommandLine

/-- What opening a file for reading gives: its bytes, or something that holds none. -/
inductive Content where
  | bytes (bytes : List UInt8)
  | unreadable
  deriving DecidableEq, Repr

/-- The surroundings of a run. -/
structure Host (m : Type → Type) where
  /-- Opens a file and reads it. -/
  read : String → m (Except SystemFault Content)
  /-- Creates a file, or empties the one that has the name; gives the room it is known to have. -/
  create : String → m (Except SystemFault Capacity)
  /-- Fills a file that has been created. -/
  write : String → String → m (Except SystemFault Unit)
  print : String → m Unit
  report : String → m Unit

end BusTables.CommandLine
