import BusTables.Proofs.Configuration.Acceptance
import BusTables.Proofs.Element.Removal
import Mathlib.Data.List.ReduceOption

/-!
# Disabled commands

A disabled command is left out, and what its element holds does not matter, its comment apart: the
comment is reported, and a command with several comments is refused like any other one.  So the
slave is built as if the element of the command were not there, unless it holds several comments
(`Slave.build_without_disabled`).
-/

namespace BusTables

open Element

namespace Command

/-- An element that gives no command may as well be missing. -/
theorem kept_without {gone : Element} (none : (buildEnabled gone).result = .ok none)
    (before after : List Element) : kept (before ++ gone :: after) = kept (before ++ after) := by
  unfold kept
  rw [List.mapM_append, List.mapM_append, List.mapM_cons, none]
  simp only [bind_assoc, pure_bind]
  refine congrArg _ (funext fun first => ?_)
  change ((after.mapM fun element => (buildEnabled element).result) >>= fun later =>
    .ok (first ++ Option.none :: later).reduceOption) = _
  refine congrArg _ (funext fun later => ?_)
  rw [List.reduceOption_append, List.reduceOption_cons_of_none, ← List.reduceOption_append]

theorem result_buildEnabled_of_disabled {element : Element}
    (disabled : element.attribute? "Disabled" = some "1")
    (few : (element.under ["Comment"]).length ≤ 1) :
    (buildEnabled element).result = .ok none := by
  have decided := element.decides_readOptionalText "Comment" ""
  obtain ⟨comment, read⟩ := decided.ok_iff.mpr (by
    rw [allMet_cons, and_iff_left allMet_nil]
    exact (met_atMostOne element (by decide)).mpr few)
  rw [result_buildEnabled, isDisabled, if_pos disabled]
  change (element.readOptionalText "Comment" "" >>= fun _ => .ok none) = _
  rw [read]
  rfl

end Command

namespace Slave

/-- The failure for a disabled command with several comments, behind some commands: the first one
met before it, or else that there are too many comments. -/
def refusal (element : Element) (before : List Element) : Failure :=
  (firstFault? (identityChecks element ++ before.flatMap Command.checks)).getD
    (.schema (.tooMany "Comment"))

variable {gone whole rest : Element}

theorem under_of_without (without : Without gone (Element.steps commandPath) whole rest)
    {path : String} (along : (Element.steps path).head? = some "Info") :
    rest.under (Element.steps path) = whole.under (Element.steps path) := by
  obtain ⟨names, split⟩ := List.head?_eq_some_iff.mp along
  rw [split]
  exact without.under_of_ne (by decide)

theorem identity_of_without (without : Without gone (Element.steps commandPath) whole rest)
    (position : Int) : identity rest position = identity whole position := by
  have increment := under_of_without without
    (show (Element.steps "Info/AutoIncAddr").head? = some "Info" by decide)
  have vendor := under_of_without without
    (show (Element.steps "Info/VendorId").head? = some "Info" by decide)
  have product := under_of_without without
    (show (Element.steps "Info/ProductCode").head? = some "Info" by decide)
  have revision := under_of_without without
    (show (Element.steps "Info/RevisionNo").head? = some "Info" by decide)
  unfold identity
  rw [readOptionalInt_congr increment, readInt_congr vendor, readInt_congr product,
    readInt_congr revision]

theorem result_of_few (without : Without gone (Element.steps commandPath) whole rest)
    (disabled : gone.attribute? "Disabled" = some "1")
    (few : (gone.under ["Comment"]).length ≤ 1) (position : Int) :
    (build whole position).result = (build rest position).result := by
  obtain ⟨before, after, first, second⟩ := without.exists_split
  have none := Command.result_buildEnabled_of_disabled disabled few
  rw [result_build, result_build, identity_of_without without, first, second,
    Command.kept_without none]

theorem result_of_many {before after : List Element}
    (split : whole.under (Element.steps commandPath) = before ++ gone :: after)
    (disabled : gone.attribute? "Disabled" = some "1")
    (many : ¬(gone.under ["Comment"]).length ≤ 1) (position : Int) :
    (build whole position).result = .error (refusal whole before) := by
  have comment : (gone.atMostOne "Comment").met = false := by
    rw [Bool.eq_false_iff]
    exact fun met => many ((met_atMostOne gone (by decide)).mp met)
  have found : firstFault? (checks whole) = some (refusal whole before) := by
    rw [checks, split, List.flatMap_append, ← List.append_assoc, firstFault?_append,
      List.flatMap_cons, Command.checks, if_pos disabled, refusal]
    cases firstFault? (identityChecks whole ++ before.flatMap Command.checks) with
    | some failure => rfl
    | none => simp [firstFault?, comment]; rfl
  exact ((decides_build whole position).error_iff _).mpr found

/-- A slave is built as if a disabled command were not there, unless the command has several
comments; then the slave is refused, if not for something before the command, for the comments. -/
theorem build_without_disabled
    (without : Without gone ["Mailbox", "CoE", "InitCmds", "InitCmd"] whole rest)
    (disabled : gone.attribute? "Disabled" = some "1") (position : Int) :
    ∃ before after,
      whole.under ["Mailbox", "CoE", "InitCmds", "InitCmd"] = before ++ gone :: after ∧
      rest.under ["Mailbox", "CoE", "InitCmds", "InitCmd"] = before ++ after ∧
      ((build whole position).result = (build rest position).result ↔
        (gone.under ["Comment"]).length ≤ 1 ∨
          (build rest position).result = .error (refusal whole before)) ∧
      (¬(gone.under ["Comment"]).length ≤ 1 →
        (build whole position).result = .error (refusal whole before)) := by
  have along : Element.steps commandPath = ["Mailbox", "CoE", "InitCmds", "InitCmd"] := by decide
  rw [← along] at without ⊢
  obtain ⟨before, after, first, second⟩ := without.exists_split
  refine ⟨before, after, first, second, ⟨fun same => ?_, ?_⟩, fun many =>
    result_of_many first disabled many position⟩
  · rw [or_iff_not_imp_left]
    intro many
    rw [← same, result_of_many first disabled many]
  · rintro (few | refused)
    · exact result_of_few without disabled few position
    · by_cases few : (gone.under ["Comment"]).length ≤ 1
      · exact result_of_few without disabled few position
      · rw [refused, result_of_many first disabled few]

/-- A disabled command that holds nothing but comments. -/
def commented (comments : List String) : Element where
  name := "InitCmd"
  attributes := [("Disabled", "1")]
  text := none
  children := comments.map fun comment => ⟨"Comment", [], some comment, []⟩

/-- A slave with commands. -/
def commanded (commands : List Element) : Element :=
  ⟨"Slave", [], none,
    [⟨"Info", [], none, [⟨"VendorId", [], some "2", []⟩, ⟨"ProductCode", [], some "1", []⟩,
        ⟨"RevisionNo", [], some "3", []⟩]⟩,
      ⟨"Mailbox", [], none, [⟨"CoE", [], none, [⟨"InitCmds", [], none, commands⟩]⟩]⟩]⟩

theorem without_commented (comments : List String) (before after : List Element) :
    Without (commented comments) ["Mailbox", "CoE", "InitCmds", "InitCmd"]
      (commanded (before ++ commented comments :: after)) (commanded (before ++ after)) := by
  have group := @Without.child (commented comments) ⟨"InitCmds", [], none, []⟩ before after
  have protocol := group.within ⟨"CoE", [], none, []⟩ [] []
  have mailbox := protocol.within ⟨"Mailbox", [], none, []⟩ [] []
  exact mailbox.within (commanded []) [(commanded []).children[0]] []

/-- A disabled command lacks all fields, behind a command that is disabled too. -/
theorem build_without_disabled_commented :
    Without (commented ["a"]) ["Mailbox", "CoE", "InitCmds", "InitCmd"]
        (commanded [commented [], commented ["a"]]) (commanded [commented []]) ∧
      (commented ["a"]).attribute? "Disabled" = some "1" ∧
      (build (commanded [commented [], commented ["a"]]) 1).result =
        (build (commanded [commented []]) 1).result := by
  have without := without_commented ["a"] [commented []] []
  have disabled : (commented ["a"]).attribute? "Disabled" = some "1" := rfl
  obtain ⟨before, after, -, -, same, -⟩ := build_without_disabled without disabled 1
  exact ⟨without, disabled, same.mpr (.inl (by decide))⟩

/-- With two comments the command is refused, and without it the slave is built. -/
theorem build_commented_twice :
    Without (commented ["a", "b"]) ["Mailbox", "CoE", "InitCmds", "InitCmd"]
        (commanded [commented ["a", "b"]]) (commanded []) ∧
      (commented ["a", "b"]).attribute? "Disabled" = some "1" ∧
      (build (commanded [commented ["a", "b"]]) 1).result =
        .error (.schema (.tooMany "Comment")) ∧
      (build (commanded []) 1).result = .ok ⟨1, 2, 1, 3, []⟩ :=
  ⟨without_commented ["a", "b"] [] [], rfl, by decide +kernel, by decide +kernel⟩

end Slave

end BusTables
