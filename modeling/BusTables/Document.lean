import BusTables.Element
import BusTables.Xml.Parser

/-!
# Documents

The root element of a document, given the bytes of the document and what a parser reads in them.
-/

namespace BusTables.Element

/-- The assembly after what stands next in a document. -/
def Assembly.take (assembly : Assembly) : Except Xml.Fault Xml.Event → Except Failure Assembly
  | .ok event => assembly.advance event
  | .error fault => .error (.markup fault)

/-- The root that a document describes; the first fault in it ends the assembly. -/
def ofItems (items : List (Except Xml.Fault Xml.Event)) : Except Failure Element := do
  let assembly ← items.foldlM Assembly.take .empty
  match assembly.root with
  | some root => .ok root
  | none => .error (.schema .rootless)

/-- The root element of the document with the given bytes. -/
def ofContent (parser : Xml.Parser) (content : List UInt8) : Except Failure Element :=
  ofItems (parser.read content)

/-- Where a document holds no fault, its root is that of its events. -/
theorem ofItems_map_ok (events : List Xml.Event) : ofItems (events.map .ok) = ofEvents events := by
  rw [ofItems, List.foldlM_map]
  rfl

theorem foldlM_take_eq_ok_iff {items : List (Except Xml.Fault Xml.Event)} {first last : Assembly} :
    items.foldlM Assembly.take first = .ok last ↔
      ∃ events : List Xml.Event, items = events.map .ok ∧
        events.foldlM Assembly.advance first = .ok last := by
  constructor
  · intro taken
    induction items generalizing first with
    | nil => exact ⟨[], rfl, taken⟩
    | cons item later ih =>
        cases item with
        | error fault => cases taken
        | ok event =>
            rw [List.foldlM_cons, Assembly.take] at taken
            cases advanced : first.advance event with
            | error failure =>
                rw [advanced] at taken
                cases taken
            | ok next =>
                rw [advanced] at taken
                obtain ⟨events, rfl, assembled⟩ := ih taken
                refine ⟨event :: events, rfl, ?_⟩
                rw [List.foldlM_cons, advanced]
                exact assembled
  · rintro ⟨events, rfl, assembled⟩
    rw [List.foldlM_map]
    exact assembled

/-- A document has a root only if it holds no fault. -/
theorem ofItems_eq_ok_iff {items : List (Except Xml.Fault Xml.Event)} {root : Element} :
    ofItems items = .ok root ↔
      ∃ events : List Xml.Event, items = events.map .ok ∧ ofEvents events = .ok root := by
  constructor
  · intro read
    cases taken : items.foldlM Assembly.take .empty with
    | error failure =>
        rw [ofItems, taken] at read
        cases read
    | ok assembly =>
        obtain ⟨events, rfl, -⟩ := foldlM_take_eq_ok_iff.mp taken
        exact ⟨events, rfl, (ofItems_map_ok events).symm.trans read⟩
  · rintro ⟨events, rfl, read⟩
    exact (ofItems_map_ok events).trans read

/-- A fault behind events that can be assembled is the failure, whatever follows it. -/
theorem ofItems_of_fault {events : List Xml.Event} {assembly : Assembly}
    (assembled : events.foldlM Assembly.advance .empty = .ok assembly) (fault : Xml.Fault)
    (later : List (Except Xml.Fault Xml.Event)) :
    ofItems (events.map .ok ++ .error fault :: later) = .error (.markup fault) := by
  have before : (events.map .ok).foldlM Assembly.take .empty = .ok assembly := by
    rw [List.foldlM_map]
    exact assembled
  rw [ofItems, List.foldlM_append, before]
  rfl

end BusTables.Element
