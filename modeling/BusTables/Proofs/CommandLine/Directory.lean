import BusTables.CommandLine.Directory
import Mathlib.Tactic.SplitIfs

/-!
# Files that are created

A path along which a file can be created leads through directories to the working directory, and
its last part names the file (`sinkFor_eq_file_iff`).  Storing files changes neither, so what is
written along a path is the whole content that is read along it afterwards (`contentOf_store`),
and emptying the file first makes no difference (`fill_clear`).
-/

namespace BusTables.CommandLine.Directory

section Files

variable (name other : String) (bytes later : List UInt8) (files : List (String × List UInt8))

theorem lookup_replace : (replace name bytes files).lookup other =
    if other = name then some bytes else files.lookup other := by
  induction files with
  | nil =>
      by_cases same : other = name
      · simp [replace, same]
      · simp [replace, List.lookup_cons, same, beq_false_of_ne same]
  | cons file files ih =>
      obtain ⟨first, content⟩ := file
      by_cases found : first = name
      · subst found
        by_cases same : other = first
        · simp [replace, same]
        · simp [replace, List.lookup_cons, same, beq_false_of_ne same]
      · by_cases same : other = first
        · subst same
          simp [replace, found]
        · simp [replace, List.lookup_cons, found, ih, beq_false_of_ne same]

theorem replace_replace : replace name later (replace name bytes files) =
    replace name later files := by
  induction files with
  | nil => simp [replace]
  | cons file files ih =>
      by_cases same : file.1 = name
      · simp [replace, same]
      · simp [replace, same, ih]

end Files

variable {directory : Directory} {path name : String}

theorem store_store (bytes later : List UInt8) :
    (directory.store name bytes).store name later = directory.store name later := by
  simp [store, replace_replace]

/-- Places that every machine has are no files of the working directory. -/
theorem common?_ne_file (place : List String) : Location.common? place ≠ some (.file name) := by
  unfold Location.common?
  split
  · rename_i location found
    rintro ⟨⟩
    obtain ⟨earlier, later, split, -⟩ := List.lookup_eq_some_iff.mp found
    have linked : ∀ link ∈ Location.commonLinks, link.2 ≠ .file name := by
      simp [Location.commonLinks]
    exact linked (place, .file name) (by simp [split]) rfl
  · split <;> nofun

theorem eq_of_entry? {location : Location} {part : String}
    (found : directory.entry? location part = some (.file name)) :
    location = .working ∧ part = name := by
  unfold entry? at found
  split at found
  · split at found
    · cases found
      exact ⟨rfl, rfl⟩
    · cases found
  · exact absurd found (common?_ne_file _)
  · cases found

section Stored

variable (name) (bytes : List UInt8)

theorem found_store {location found : Location} {part : String}
    (entered : directory.entry? location part = some found) :
    entry? (directory.store name bytes) location part = some found := by
  unfold entry? at entered ⊢
  split at entered
  · split at entered
    · rename_i listed
      rw [if_pos, entered]
      rw [store, lookup_replace]
      split
      · rfl
      · exact listed
    · cases entered
  · exact entered
  · cases entered

theorem step_store {location found : Location} {part : String}
    (stepped : directory.step location part = .ok found) :
    (directory.store name bytes).step location part = .ok found := by
  -- The two steps differ only in the last branch, where the directory is looked into.
  unfold step at stepped ⊢
  split at stepped
  · cases stepped
  · rename_i isOpen
    rw [if_neg isOpen]
    split at stepped
    · rename_i stays
      rw [if_pos stays, stepped]
    · rename_i moves
      rw [if_neg moves]
      split at stepped
      · rename_i above
        rw [if_pos above, stepped]
      · rename_i below
        rw [if_neg below]
        split at stepped
        · cases stepped
        · rename_i short
          rw [if_neg short]
          split at stepped
          · rename_i entered
            rw [found_store name bytes entered]
            exact stepped
          · cases stepped

theorem walk_store {location found : Location} {parts : List String}
    (walked : directory.walk location parts = .ok found) :
    (directory.store name bytes).walk location parts = .ok found := by
  induction parts generalizing location with
  | nil => exact walked
  | cons part later ih =>
      rw [walk, List.foldlM_cons] at walked ⊢
      cases stepped : directory.step location part with
      | error fault =>
          rw [stepped] at walked
          cases walked
      | ok next =>
          rw [stepped] at walked
          rw [step_store name bytes stepped]
          exact ih walked

end Stored

/-- A path leads through the working directory, and its last part is a name there. -/
structure Names (directory : Directory) (path : String) (outer : List String) (name : String) :
    Prop where
  passable : pathFault? path = none
  parts : partsOf path = outer ++ [name]
  within : directory.walk (startOf path) outer = .ok .working
  filled : name ≠ ""
  ordinary : name ≠ "." ∧ name ≠ ".."
  short : (Text.bytes name).length ≤ longestPart

namespace Names

variable {outer : List String} (names : directory.Names path outer name)

include names

theorem store (other : String) (bytes : List UInt8) :
    (directory.store other bytes).Names path outer name :=
  { names with within := walk_store other bytes names.within }

theorem sinkAt : directory.sinkAt .working false name = .ok (.file name) := by
  unfold Directory.sinkAt
  rw [if_neg (by decide), if_neg (by simp [names.ordinary]), if_neg (Nat.not_lt.mpr names.short)]
  cases listed : (directory.files.lookup name).isSome with
  | true =>
      simp [listed, Directory.entry?, Location.isDirectory, Location.openFault?, Location.sink]
  | false => simp [listed, Directory.entry?, Location.creationFault?]

theorem sinkFor : directory.sinkFor path = .ok (.file name) := by
  have reversed : (partsOf path).reverse = name :: outer.reverse := by simp [names.parts]
  have filled : name.isEmpty = false := by simpa using names.filled
  have closed : (some name == some "") = false := by simpa using names.filled
  unfold Directory.sinkFor
  rw [names.passable, reversed]
  simp only [List.dropWhile_cons, filled, Bool.false_eq_true, if_false, List.reverse_reverse,
    names.within, List.head?_cons, closed]
  exact names.sinkAt

end Names

theorem eq_file_of_sink {location : Location} (leads : location.sink = .file name) :
    location = .file name := by
  unfold Location.sink at leads
  split at leads
  · cases leads
    rfl
  · split_ifs at leads
  · cases leads

theorem named_of_sinkAt {location : Location} {isClosed : Bool} {part : String}
    (created : directory.sinkAt location isClosed part = .ok (.file name)) :
    location = .working ∧ part = name ∧ isClosed = false ∧ (name ≠ "." ∧ name ≠ "..") ∧
      (Text.bytes name).length ≤ longestPart := by
  unfold sinkAt at created
  split at created
  · cases created
  split at created
  · cases created
  rename_i ordinary
  split at created
  · cases created
  rename_i short
  have led : location = .working ∧ part = name := by
    split at created
    · rename_i found entered
      split at created
      · cases created
      split at created
      · cases created
      · rw [eq_file_of_sink (Except.ok.inj created)] at entered
        exact eq_of_entry? entered
    · split at created
      · cases created
      split_ifs at created with inside
      · cases created
        exact ⟨inside, rfl⟩
      · cases created
  obtain ⟨rfl, rfl⟩ := led
  simp only [not_or, Bool.not_eq_true] at ordinary
  exact ⟨rfl, rfl, ordinary.1, ordinary.2, Nat.not_lt.mp short⟩

theorem sinkFor_eq_file_iff :
    directory.sinkFor path = .ok (.file name) ↔ ∃ outer, directory.Names path outer name := by
  constructor
  · intro created
    unfold Directory.sinkFor at created
    split at created
    · cases created
    rename_i passable
    dsimp only at created
    split at created
    · cases created
    rename_i last outer parts
    cases within : directory.walk (startOf path) outer.reverse with
    | error fault =>
        rw [within] at created
        cases created
    | ok location =>
        rw [within] at created
        obtain ⟨rfl, rfl, isOpen, ordinary, short⟩ := named_of_sinkAt created
        cases reversed : (partsOf path).reverse with
        | nil =>
            rw [reversed] at parts
            cases parts
        | cons first rest =>
            rw [reversed] at parts isOpen
            have filled : first ≠ "" := by simpa using isOpen
            rw [List.dropWhile_cons_of_neg (by simpa using filled)] at parts
            cases parts
            exact ⟨outer.reverse, passable, by simpa using congrArg List.reverse reversed, within,
              filled, ordinary, short⟩
  · rintro ⟨outer, names⟩
    exact names.sinkFor

/-- What is created along a path is found along it, whatever is stored meanwhile. -/
theorem sinkFor_store (other : String) (bytes : List UInt8)
    (created : directory.sinkFor path = .ok (.file name)) :
    (directory.store other bytes).sinkFor path = .ok (.file name) := by
  obtain ⟨outer, names⟩ := sinkFor_eq_file_iff.mp created
  exact (names.store other bytes).sinkFor

theorem contentOf_store (bytes : List UInt8)
    (created : directory.sinkFor path = .ok (.file name)) :
    (directory.store name bytes).contentOf path = .ok (.bytes bytes) := by
  obtain ⟨outer, names⟩ := sinkFor_eq_file_iff.mp created
  have stored : (directory.store name bytes).files.lookup name = some bytes := by
    simp [store, lookup_replace]
  have named : (directory.store name bytes).step .working name = .ok (.file name) := by
    unfold step
    rw [if_neg (by decide), if_neg (by simp [names.filled, names.ordinary]),
      if_neg names.ordinary.2, if_neg (Nat.not_lt.mpr names.short)]
    simp [stored, entry?]
  have walked : (directory.store name bytes).walk (startOf path) (partsOf path) =
      .ok (.file name) := by
    rw [names.parts, walk, List.foldlM_append]
    refine (congrArg (· >>= _) (names.store name bytes).within).trans ?_
    exact (congrArg (· >>= _) named).trans rfl
  unfold contentOf
  rw [names.passable]
  dsimp only
  rw [walked]
  change Except.ok (Content.bytes (((directory.store name bytes).files.lookup name).getD [])) = _
  rw [stored]
  rfl

/-- Emptying a file before it is filled makes no difference. -/
theorem fill_clear {sink : Sink} (created : directory.sinkFor path = .ok sink) (text : String) :
    ((directory.clear sink).sinkFor path >>= (directory.clear sink).fill text) =
      directory.fill text sink := by
  cases sink with
  | file name =>
      refine (congrArg (· >>= _) (sinkFor_store name [] created)).trans ?_
      exact congrArg Except.ok (store_store [] _)
  | _ => exact congrArg (· >>= _) created

end BusTables.CommandLine.Directory
