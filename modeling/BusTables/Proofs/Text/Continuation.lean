import BusTables.Text.Blank
import Mathlib.Data.List.DropRight

/-!
# Lines that go on

A line that ends in a reverse solidus goes on with the next line.  Readers differ in what they
skip behind the reverse solidus: nothing, carriage returns, or blanks as well.

Cleaning drops the carriage returns at the end of a line and then the reverse solidi.  It is done
once, so that a reverse solidus behind which there is something else to skip survives
(`continues_cleaned_iff`).
-/

namespace BusTables.Text

/-- The line without the carriage returns at its end, and then without the reverse solidi. -/
def cleaned (line : List Char) : List Char :=
  dropEndWhile (· == '\\') (dropEndWhile (· == '\r') line)

/-- The line ends in a reverse solidus, skipped characters apart. -/
def Continues (skipped : Char → Bool) (line : List Char) : Prop :=
  (dropEndWhile skipped line).getLast? = some '\\'

/-- Behind a reverse solidus stand skipped characters, then reverse solidi, and then carriage
returns; only the latter two are cleaned away. -/
def Survives (skipped : Char → Bool) (line : List Char) : Prop :=
  ∃ before between solidi returns,
    line = before ++ '\\' :: between ++ List.replicate solidi '\\' ++
        List.replicate returns '\r' ∧
      between ≠ [] ∧ (∀ character ∈ between, skipped character = true) ∧
        (solidi = 0 → between.getLast? ≠ some '\r')

section Ends

variable {α : Type} {test : α → Bool}

theorem exists_dropped (test : α → Bool) (items : List α) :
    ∃ tail, items = dropEndWhile test items ++ tail ∧ ∀ item ∈ tail, test item = true :=
  ⟨items.rtakeWhile test, List.rdropWhile_append_rtakeWhile.symm,
    fun _ => List.mem_rtakeWhile_imp⟩

/-- What is left does not end in what was to be dropped. -/
theorem test_of_getLast?_dropEndWhile {items : List α} {last : α}
    (ends : (dropEndWhile test items).getLast? = some last) : test last = false := by
  rw [dropEndWhile, List.getLast?_reverse] at ends
  have stops := List.head?_dropWhile_not test items.reverse
  rw [ends] at stops
  exact stops

theorem dropEndWhile_append {items tail : List α} (inside : ∀ item ∈ tail, test item = true)
    (ends : ∀ last ∈ items.getLast?, test last = false) :
    dropEndWhile test (items ++ tail) = items := by
  have behind : ∀ item ∈ tail.reverse, test item = true := fun item member =>
    inside item (List.mem_reverse.mp member)
  rw [dropEndWhile, List.reverse_append, List.dropWhile_append_of_pos behind]
  rcases List.eq_nil_or_concat items with rfl | ⟨earlier, last, rfl⟩
  · rfl
  · rw [List.concat_eq_append] at ends ⊢
    exact dropEndWhile_append_singleton_of_neg (ends last (by simp)) earlier

theorem eq_replicate {items : List Char} {mark : Char}
    (same : ∀ item ∈ items, (item == mark) = true) :
    items = List.replicate items.length mark :=
  List.eq_replicate_of_mem fun item member => beq_iff_eq.mp (same item member)

end Ends

section Skipped

variable {skipped : Char → Bool}

/-- A line goes on if skipped characters alone stand behind one of its reverse solidi. -/
theorem continues_iff (apart : skipped '\\' = false) (line : List Char) :
    Continues skipped line ↔
      ∃ before between, line = before ++ '\\' :: between ∧
        ∀ character ∈ between, skipped character = true := by
  constructor
  · intro continues
    obtain ⟨tail, whole, inside⟩ := exists_dropped skipped line
    obtain ⟨before, kept⟩ := List.getLast?_eq_some_iff.mp continues
    refine ⟨before, tail, ?_, inside⟩
    rw [whole, kept, List.append_assoc]
    rfl
  · rintro ⟨before, between, rfl, inside⟩
    have ends : ∀ last ∈ (before ++ ['\\']).getLast?, skipped last = false := by
      rintro last member
      rw [List.getLast?_append, Option.mem_def] at member
      rw [← Option.some.inj member]
      exact apart
    rw [Continues, ← List.singleton_append, ← List.append_assoc,
      dropEndWhile_append inside ends, List.getLast?_append]
    rfl

theorem getLast?_behind (before : List Char) (mark : Char) {between : List Char}
    (nonempty : between ≠ []) : (before ++ mark :: between).getLast? = between.getLast? := by
  rw [List.getLast?_append, List.getLast?_cons, List.getLast?_eq_some_getLast nonempty]
  rfl

theorem getLast?_cleaned (line : List Char) : (cleaned line).getLast? ≠ some '\\' := fun ends =>
  Bool.noConfusion (test_of_getLast?_dropEndWhile ends)

theorem survives_of_continues (apart : skipped '\\' = false) {line : List Char}
    (continues : Continues skipped (cleaned line)) : Survives skipped line := by
  obtain ⟨before, between, kept, inside⟩ := (continues_iff apart _).mp continues
  obtain ⟨returns, whole, carriage⟩ := exists_dropped (· == '\r') line
  obtain ⟨solidi, inner, solid⟩ := exists_dropped (· == '\\') (dropEndWhile (· == '\r') line)
  have nonempty : between ≠ [] := by
    rintro rfl
    refine getLast?_cleaned line ?_
    rw [kept, List.getLast?_append]
    rfl
  refine ⟨before, between, solidi.length, returns.length, ?_, nonempty, inside, ?_⟩
  · rw [← eq_replicate solid, ← eq_replicate carriage, ← kept, cleaned, ← inner, ← whole]
  · intro none ends
    rw [List.length_eq_zero_iff.mp none, List.append_nil] at inner
    rw [← getLast?_behind before '\\' nonempty, ← kept, cleaned, ← inner] at ends
    exact Bool.noConfusion (test_of_getLast?_dropEndWhile ends)

theorem continues_of_survives (apart : skipped '\\' = false) {line : List Char}
    (survives : Survives skipped line) : Continues skipped (cleaned line) := by
  obtain ⟨before, between, solidi, returns, rfl, nonempty, inside, ends⟩ := survives
  have last : ∀ last ∈ (before ++ '\\' :: between).getLast?, skipped last = true := by
    intro last member
    rw [getLast?_behind before '\\' nonempty] at member
    exact inside last (List.mem_of_getLast? member)
  have carriage : dropEndWhile (· == '\r') (before ++ '\\' :: between ++
      List.replicate solidi '\\' ++ List.replicate returns '\r') =
        before ++ '\\' :: between ++ List.replicate solidi '\\' := by
    refine dropEndWhile_append (by simp) fun mark member => ?_
    rw [beq_eq_false_iff_ne]
    rintro rfl
    cases solidi with
    | zero =>
        rw [List.replicate_zero, List.append_nil, getLast?_behind before '\\' nonempty] at member
        exact ends rfl member
    | succ count =>
        rw [List.replicate_succ', ← List.append_assoc, List.getLast?_concat] at member
        cases member
  have solid : dropEndWhile (· == '\\') (before ++ '\\' :: between ++
      List.replicate solidi '\\') = before ++ '\\' :: between := by
    refine dropEndWhile_append (by simp) fun mark member => ?_
    rw [beq_eq_false_iff_ne]
    rintro rfl
    rw [last _ member] at apart
    cases apart
  rw [cleaned, carriage, solid, continues_iff apart]
  exact ⟨before, between, rfl, inside⟩

/-- What stands before a line makes no difference if it holds no reverse solidus. -/
theorem continues_append (apart : skipped '\\' = false) {start : List Char}
    (free : '\\' ∉ start) (line : List Char) :
    Continues skipped (start ++ line) ↔ Continues skipped line := by
  rw [continues_iff apart, continues_iff apart]
  constructor
  · rintro ⟨before, between, whole, inside⟩
    rcases List.append_eq_append_iff.mp whole with ⟨rest, rfl, same⟩ | ⟨rest, rfl, same⟩
    · exact ⟨rest, between, same, inside⟩
    · cases rest with
      | nil => exact ⟨[], between, same.symm, inside⟩
      | cons first later =>
          rw [← List.head_eq_of_cons_eq same] at free
          simp at free
  · rintro ⟨before, between, rfl, inside⟩
    exact ⟨start ++ before, between, (List.append_assoc ..).symm, inside⟩

/-- Cleaning once leaves what survives, and nothing else goes on. -/
theorem continues_cleaned_iff (apart : skipped '\\' = false) (line : List Char) :
    Continues skipped (cleaned line) ↔ Survives skipped line :=
  ⟨survives_of_continues apart, continues_of_survives apart⟩

end Skipped

/-- Where nothing is skipped, the last character decides. -/
theorem continues_none (line : List Char) :
    Continues (fun _ => false) line ↔ line.getLast? = some '\\' := by
  have whole : dropEndWhile (fun _ => false) line = line := by
    simpa using @dropEndWhile_append _ (fun _ => false) line [] (by simp) (by simp)
  rw [Continues, whole]

theorem not_survives_none (line : List Char) : ¬Survives (fun _ => false) line := by
  rintro ⟨before, between, solidi, returns, -, nonempty, inside, -⟩
  obtain ⟨first, rest, rfl⟩ := List.exists_cons_of_ne_nil nonempty
  exact Bool.noConfusion (inside first List.mem_cons_self)

end BusTables.Text
