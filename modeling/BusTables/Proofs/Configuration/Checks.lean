import BusTables.Proofs.Configuration.Described

/-!
# Checks in turn

A check is a demand that a document meets or not, with the failure that is reported where it does
not.  Checks decide a computation that ends with a value if all of them are met, and else with
the failure of the first one that is not (`Decides`).  One computation after another is decided
by the checks of both, one list behind the other.
-/

namespace BusTables

/-- A demand that is met or not, and the failure that is reported if it is not. -/
structure Check where
  met : Bool
  failure : Failure
  deriving DecidableEq, Repr

/-- The failure of the first check that is not met. -/
def firstFault? (checks : List Check) : Option Failure :=
  (checks.find? (!·.met)).map (·.failure)

theorem firstFault?_append (first later : List Check) :
    firstFault? (first ++ later) = (firstFault? first).or (firstFault? later) := by
  rw [firstFault?, List.find?_append, Option.map_or]
  rfl

/-- All checks are met. -/
def AllMet (checks : List Check) : Prop := ∀ check ∈ checks, check.met = true

@[simp] theorem allMet_nil : AllMet [] :=
  fun _ member => absurd member List.not_mem_nil

@[simp] theorem allMet_cons (check : Check) (others : List Check) :
    AllMet (check :: others) ↔ check.met = true ∧ AllMet others :=
  List.forall_mem_cons

@[simp] theorem allMet_append (first later : List Check) :
    AllMet (first ++ later) ↔ AllMet first ∧ AllMet later :=
  List.forall_mem_append

@[simp] theorem allMet_map {α : Type} (check : α → Check) (items : List α) :
    AllMet (items.map check) ↔ ∀ item ∈ items, (check item).met = true :=
  List.forall_mem_map

@[simp] theorem allMet_flatMap {α : Type} (checked : α → List Check) (items : List α) :
    AllMet (items.flatMap checked) ↔ ∀ item ∈ items, AllMet (checked item) :=
  List.forall_mem_flatMap

theorem firstFault?_eq_none_iff {checks : List Check} :
    firstFault? checks = none ↔ AllMet checks := by
  simp [firstFault?, AllMet]

/-- A computation ends with a value if all checks are met, and else with the failure of the first
one that is not. -/
def Decides {α : Type} (checks : List Check) (result : Except Failure α) : Prop :=
  match firstFault? checks with
  | none => ∃ value, result = .ok value
  | some failure => result = .error failure

theorem Traced.result_mapM {α β : Type} (step : α → Traced β) (items : List α) :
    (items.mapM step).result = items.mapM fun item => (step item).result := by
  induction items with
  | nil => rfl
  | cons item later ih =>
      rw [List.mapM_cons, List.mapM_cons, result_bind]
      refine congrArg _ (funext fun made => ?_)
      rw [result_bind, ih]
      rfl

namespace Decides

variable {α β : Type} {checks first later : List Check} {result : Except Failure α}

theorem error_iff (decided : Decides checks result) (failure : Failure) :
    result = .error failure ↔ firstFault? checks = some failure := by
  unfold Decides at decided
  split at decided
  · rename_i none
    obtain ⟨value, rfl⟩ := decided
    simp [none]
  · rename_i some
    rw [decided, some, Except.error.injEq, Option.some.injEq]

theorem ok_iff (decided : Decides checks result) :
    (∃ value, result = .ok value) ↔ AllMet checks := by
  rw [← firstFault?_eq_none_iff]
  unfold Decides at decided
  split at decided
  · rename_i none
    exact ⟨fun _ => none, fun _ => decided⟩
  · rename_i some
    simp [decided, some]

theorem value (given : α) : Decides [] (.ok given) :=
  ⟨given, rfl⟩

/-- A single check decides what hangs on it alone. -/
theorem single {met : Bool} {failure : Failure}
    (passed : met = true → ∃ value, result = .ok value)
    (failed : met = false → result = .error failure) : Decides [⟨met, failure⟩] result := by
  cases met with
  | true => exact passed rfl
  | false => exact failed rfl

/-- The checks of a later computation count once the earlier one has ended with a value. -/
theorem bind {next : α → Except Failure β} (decided : Decides first result)
    (follows : ∀ value, result = .ok value → Decides later (next value)) :
    Decides (first ++ later) (result >>= next) := by
  unfold Decides at decided ⊢
  rw [firstFault?_append]
  split at decided
  · rename_i none
    obtain ⟨value, rfl⟩ := decided
    rw [none, Option.none_or]
    exact follows value rfl
  · rename_i some
    rw [some, Option.some_or, decided]
    rfl

theorem map (decided : Decides checks result) (next : α → β) :
    Decides checks (result >>= fun value => .ok (next value)) := by
  have both := decided.bind fun given _ => value (next given)
  rwa [List.append_nil] at both

/-- A traversal is decided item by item. -/
theorem mapM {step : α → Except Failure β} {checked : α → List Check}
    (each : ∀ item, Decides (checked item) (step item)) (items : List α) :
    Decides (items.flatMap checked) (items.mapM step) := by
  induction items with
  | nil => exact value []
  | cons item others ih =>
      rw [List.mapM_cons, List.flatMap_cons]
      exact (each item).bind fun made _ => ih.map (made :: ·)

/-- What a traversal reports has no part in it. -/
theorem traversal {step : α → Traced β} {checked : α → List Check}
    (each : ∀ item, Decides (checked item) (step item).result) (items : List α) :
    Decides (items.flatMap checked) (items.mapM step).result := by
  rw [Traced.result_mapM]
  exact mapM each items

end Decides

namespace Element

/-- No more than one element stands at a path. -/
def atMostOne (element : Element) (path : String) : Check :=
  ⟨decide ((element.under (steps path)).length ≤ 1), .schema (.tooMany path)⟩

/-- Some element stands at a path. -/
def atLeastOne (element : Element) (path : String) : Check :=
  ⟨!(element.under (steps path)).isEmpty, .schema (.tooFew path)⟩

/-- What stands at a path is an integer literal. -/
def literals (element : Element) (path : String) : List Check :=
  (element.under (steps path)).map fun found =>
    ⟨(Numeral.value? found.content).isSome, .value (.integer found.content path)⟩

/-- Exactly one element stands at a path, and it is an integer literal. -/
def oneNumber (element : Element) (path : String) : List Check :=
  element.atMostOne path :: element.atLeastOne path :: element.literals path

/-- If anything stands at a path, it is one integer literal. -/
def optionalNumber (element : Element) (path : String) : List Check :=
  element.atMostOne path :: element.literals path

variable (element : Element) (path : String)

theorem decides_find : Decides [element.atLeastOne path] (element.find path (some 1) none) := by
  rw [find, descendants_eq (steps path) rfl]
  cases found : element.under (steps path) with
  | nil =>
      refine .single (by simp [found]) fun _ => ?_
      simp
  | cons first others => exact .single (fun _ => ⟨_, rfl⟩) (by simp [found])

theorem decides_findOne :
    Decides [element.atMostOne path, element.atLeastOne path] (element.findOne path) := by
  unfold findOne Decides firstFault? atMostOne atLeastOne
  rw [descendants_eq (steps path) rfl]
  rcases element.under (steps path) with _ | ⟨first, _ | ⟨second, others⟩⟩ <;> simp

theorem decides_findOptional :
    Decides [element.atMostOne path] (element.findOptional path) := by
  unfold findOptional Decides firstFault? atMostOne
  rw [descendants_eq (steps path) rfl]
  rcases element.under (steps path) with _ | ⟨first, _ | ⟨second, others⟩⟩ <;> simp

theorem decides_read (literal : String) :
    Decides [⟨(Numeral.value? literal).isSome, .value (.integer literal path)⟩]
      (Numeral.read literal path) := by
  unfold Numeral.read
  rw [Numeral.read?_eq]
  cases Numeral.value? literal with
  | none => exact rfl
  | some value => exact ⟨_, rfl⟩

theorem decides_readInt : Decides (element.oneNumber path) (element.readInt path) := by
  change Decides ([element.atMostOne path, element.atLeastOne path] ++ element.literals path) _
  refine (element.decides_findOne path).bind fun found one => ?_
  rw [literals, under_of_findOne rfl one]
  exact decides_read path found.content

theorem decides_readOptionalInt (default : Int) :
    Decides (element.optionalNumber path) (element.readOptionalInt path default) := by
  change Decides ([element.atMostOne path] ++ element.literals path) _
  refine (element.decides_findOptional path).bind fun found one => ?_
  rw [literals, under_of_findOptional rfl one]
  cases found with
  | none => exact .value default
  | some found => exact decides_read path found.content

theorem decides_readOptionalText (default : String) :
    Decides [element.atMostOne path] (element.readOptionalText path default) := by
  have decided := (element.decides_findOptional path).map fun found =>
    (found.map content).getD default
  have same : element.readOptionalText path default =
      element.findOptional path >>= fun found => .ok ((found.map content).getD default) := by
    unfold readOptionalText
    refine congrArg _ (funext fun found => ?_)
    cases found <;> rfl
  rwa [same]

end Element

end BusTables
