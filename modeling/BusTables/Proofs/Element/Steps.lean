import BusTables.Element.Path
import BusTables.Proofs.Text.Separated

/-!
# The steps of a path

A path is made up of parts with slashes between them, and of no others (`exists_parts`,
`Parts.unique`).  The steps along it are its parts in their order, the empty ones and single dots
apart (`steps_of_parts`).
-/

namespace BusTables.Element

/-- Texts without slashes make up a path with slashes between them. -/
structure Parts (path : String) (parts : List String) : Prop where
  some : parts ≠ []
  whole : ∀ part ∈ parts, '/' ∉ part.toList
  joined : String.intercalate "/" parts = path

/-- A part leads further unless it is empty or a single dot. -/
def leadsOn (part : String) : Bool := !(part == "" || part == ".")

theorem toList_intercalate_slash (parts : List String) :
    (String.intercalate "/" parts).toList = ['/'].intercalate (parts.map String.toList) :=
  String.toList_intercalate

theorem not_mem_of_mem_splitOn {letters part : List Char} (member : part ∈ letters.splitOn '/') :
    '/' ∉ part := by
  induction letters generalizing part with
  | nil =>
      rw [List.splitOn_nil, List.mem_singleton] at member
      rw [member]
      exact List.not_mem_nil
  | cons letter later ih =>
      obtain ⟨first, rest, parts⟩ := List.exists_cons_of_ne_nil (List.splitOn_ne_nil '/' later)
      rw [List.splitOn_cons_eq_if_modifyHead, parts] at member
      rw [parts] at ih
      split at member
      · rcases List.mem_cons.mp member with rfl | among
        · exact List.not_mem_nil
        · exact ih among
      · rename_i other
        rw [List.modifyHead_cons] at member
        rcases List.mem_cons.mp member with rfl | among
        · have distinct : '/' ≠ letter := fun same => other (beq_iff_eq.mpr same.symm)
          exact List.not_mem_cons_of_ne_of_not_mem distinct (ih List.mem_cons_self)
        · exact ih (List.mem_cons_of_mem first among)

theorem exists_parts (path : String) : ∃ parts, Parts path parts := by
  refine ⟨(path.toList.splitOn '/').map String.ofList, ?_, ?_, ?_⟩
  · simp [List.splitOn_ne_nil]
  · intro part member slash
    obtain ⟨letters, among, rfl⟩ := List.mem_map.mp member
    rw [String.toList_ofList] at slash
    exact not_mem_of_mem_splitOn among slash
  · rw [← String.toList_inj, toList_intercalate_slash, List.map_map]
    have letters : String.toList ∘ String.ofList = id := funext fun _ => String.toList_ofList
    rw [letters, List.map_id, List.intercalate_splitOn]

theorem Parts.unique {path : String} {parts others : List String} (cut : Parts path parts)
    (other : Parts path others) : parts = others :=
  Text.intercalate_injective (show "/".toList = '/' :: [] from rfl) cut.whole other.whole cut.some
    other.some (cut.joined.trans other.joined.symm)

theorem splitOn_of_parts {path : String} {parts : List String} (cut : Parts path parts) :
    path.toList.splitOn '/' = parts.map String.toList := by
  rw [← cut.joined, toList_intercalate_slash]
  refine List.splitOn_intercalate '/' ?_ (by simpa using cut.some)
  intro letters member
  obtain ⟨part, among, rfl⟩ := List.mem_map.mp member
  exact cut.whole part among

/-- The steps along a path are the parts that lead on. -/
theorem steps_of_parts {path : String} {parts : List String} (cut : Parts path parts) :
    steps path = parts.filter leadsOn := by
  have same : (fun name : List Char => !(name.isEmpty || name == ['.'])) ∘ String.toList =
      leadsOn := by
    funext part
    have empty : part.toList.isEmpty = (part == "") := by
      rw [Bool.eq_iff_iff, List.isEmpty_iff, beq_iff_eq, String.toList_eq_nil_iff]
    have dot : (part.toList == ['.']) = (part == ".") := by
      rw [Bool.eq_iff_iff, beq_iff_eq, beq_iff_eq, ← String.toList_inj]
      rfl
    rw [Function.comp_apply, empty, dot, leadsOn]
  have letters : String.ofList ∘ String.toList = id := funext fun _ => String.ofList_toList
  rw [steps, splitOn_of_parts cut, List.filter_map, same, List.map_map, letters, List.map_id]

example : steps "./Info//VendorId/." = ["Info", "VendorId"] := by decide

/-- A slash between two paths puts the steps of the one behind those of the other. -/
theorem steps_append (path later : String) :
    steps (path ++ "/" ++ later) = steps path ++ steps later := by
  have split : (path ++ "/" ++ later).toList = path.toList ++ '/' :: later.toList := by simp
  rw [steps, split, List.splitOn_append_cons_self, List.filter_append, List.map_append]
  rfl

end BusTables.Element
