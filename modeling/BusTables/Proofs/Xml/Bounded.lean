import BusTables.Document
import BusTables.Xml.Reading

/-!
# Readings in so many steps

A reading ends because each step leaves less to read.  The steps can be counted as well: a
reading that ends within a number of steps ends the same way without the bound
(`run_of_runWithin`), and the bounded reading is evaluated step by step.
-/

namespace BusTables.Xml

namespace Reading

/-- A reading that is given up after a number of steps. -/
def runWithin : Nat → Reading → Nat → List Char → Source → Option (Option (List Event))
  | 0, _, _, _, _ => none
  | steps + 1, reading, budget, character :: pending, source =>
      match reading.feed character with
      | none => some none
      | some reading =>
          match reading.request with
          | none => runWithin steps reading budget pending source
          | some (.encoding _) => some none
          | some (.expand []) => runWithin steps reading.granted budget pending source
          | some (.expand (first :: later)) =>
              match budget with
              | 0 => some none
              | budget + 1 =>
                  if pending.length ≤ pendingLimit then
                    runWithin steps reading.granted budget (first :: later ++ pending) source
                  else some none
  | steps + 1, reading, _, [], source =>
      match source.encoding.scan source.bytes with
      | .malformed => some none
      | .finished => some reading.finish?
      | .character character rest =>
          match reading.feed character with
          | none => some none
          | some reading =>
              match reading.request with
              | none => runWithin steps reading expansionLimit [] ⟨source.encoding, rest⟩
              | some (.encoding name) =>
                  match (EncodingLabel.ofName? name).bind source.encoding.declared? with
                  | some encoding =>
                      runWithin steps reading.granted expansionLimit [] ⟨encoding, rest⟩
                  | none => some none
              | some (.expand text) =>
                  runWithin steps reading.granted (expansionLimit - 1) text
                    ⟨source.encoding, rest⟩

theorem run_of_runWithin {steps : Nat} {reading : Reading} {budget : Nat} {pending : List Char}
    {source : Source} {events : Option (List Event)}
    (ended : runWithin steps reading budget pending source = some events) :
    reading.run budget pending source = events := by
  induction steps generalizing reading budget pending source with
  | zero => cases ended
  | succ steps ih =>
      cases pending with
      | cons character pending =>
          rw [runWithin] at ended
          rw [run]
          cases fed : reading.feed character with
          | none => simpa [fed] using ended
          | some next =>
              simp only [fed] at ended ⊢
              rcases asked : next.request with _ | ⟨_ | ⟨first, later⟩⟩ | name
              · simp only [asked] at ended ⊢
                exact ih ended
              · simp only [asked] at ended ⊢
                exact ih ended
              · simp only [asked] at ended ⊢
                cases budget with
                | zero => simpa using ended
                | succ budget =>
                    simp only at ended ⊢
                    split at ended
                    · rename_i room
                      rw [if_pos room]
                      exact ih ended
                    · rename_i full
                      rw [if_neg full]
                      exact Option.some.inj ended
              · simpa [asked] using ended
      | nil =>
          rw [runWithin] at ended
          rw [run]
          split
          · rename_i scanned
            simpa [scanned] using ended
          · rename_i scanned
            simpa [scanned] using ended
          · rename_i character rest scanned
            simp only [scanned] at ended
            cases fed : reading.feed character with
            | none => simpa [fed] using ended
            | some next =>
                simp only [fed] at ended ⊢
                rcases asked : next.request with _ | text | name
                · simp only [asked] at ended ⊢
                  exact ih ended
                · simp only [asked] at ended ⊢
                  exact ih ended
                · simp only [asked] at ended ⊢
                  cases declared : (EncodingLabel.ofName? name).bind source.encoding.declared? with
                  | none =>
                      rw [declared] at ended
                      exact Option.some.inj ended
                  | some encoding =>
                      rw [declared] at ended
                      exact ih ended

end Reading

/-- The events of a document that is read within a number of steps. -/
def eventsWithin? (steps : Nat) (content : List UInt8) : Option (List Event) :=
  (Reading.runWithin steps .initial Reading.expansionLimit [] (Source.ofContent content)).join

theorem events?_of_eventsWithin? {steps : Nat} {content : List UInt8} {events : List Event}
    (ended : eventsWithin? steps content = some events) : events? content = some events :=
  Reading.run_of_runWithin (Option.join_eq_some_iff.mp ended)

theorem read_of_eventsWithin? {steps : Nat} {content : List UInt8} {events : List Event}
    (ended : eventsWithin? steps content = some events) :
    Parser.standard.read content = events.map .ok := by
  unfold Parser.standard
  dsimp only
  rw [events?_of_eventsWithin? ended]

end BusTables.Xml

namespace BusTables.Element

/-- A document that is read within a number of steps has a root, which may be tested. -/
theorem exists_root {steps : Nat} {content : List UInt8} {test : Element → Bool}
    (passed : (Xml.eventsWithin? steps content).any
      (fun events => (ofEvents events).toOption.any test) = true) :
    ∃ root, ofContent .standard content = .ok root ∧ test root = true := by
  cases read : Xml.eventsWithin? steps content with
  | none => simp [read] at passed
  | some events =>
      cases assembled : ofEvents events with
      | error failure => simp [read, assembled, Except.toOption] at passed
      | ok root =>
          refine ⟨root, ?_, by simpa [read, assembled, Except.toOption] using passed⟩
          rw [ofContent, Xml.read_of_eventsWithin? read, ofItems_map_ok]
          exact assembled

end BusTables.Element
