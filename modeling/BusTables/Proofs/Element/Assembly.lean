import BusTables.Element

/-!
# Trees from the events of their documents

A document is read element by element: the text of an element in chunks before its first child,
then the children one after the other.  Text behind a child or outside of the roots counts for
nothing, and comments and the like may stand anywhere.  From such events the elements are put
together with no recursion, by a stack of those whose end is due; what comes out is the last root,
as it was read (`ofEvents_reads`).

The invariant is `assembled`: events that read elements bring any assembly to the one in which
these elements have ended, one after the other.
-/

namespace BusTables

namespace Xml.Event

/-- Neither the start nor the end of an element. -/
def isInert : Event → Bool
  | .characters _ => true
  | .other => true
  | _ => false

/-- The chunks of text among events. -/
def chunks : List Event → List String
  | [] => []
  | .characters chunk :: later => chunk :: chunks later
  | _ :: later => chunks later

/-- The text that the chunks among events make up; without a chunk there is none. -/
def text? (events : List Event) : Option String :=
  if chunks events = [] then none else some (String.join (chunks events))

end Xml.Event

open Xml

/-- Events among which no element starts or ends. -/
def Inert (events : List Event) : Prop := ∀ event ∈ events, event.isInert = true

instance (events : List Event) : Decidable (Inert events) :=
  inferInstanceAs (Decidable (∀ event ∈ events, event.isInert = true))

namespace Element

/--
Events that read elements one after the other.  What leads up to the first child of an element
holds the chunks of its text, and what trails behind an element holds nothing that counts.
-/
inductive Reads : List Element → List Event → Prop where
  | nil : Reads [] []
  | cons (name : String) (attributes : List (String × String))
      {leading inside trailing behind : List Event} {children others : List Element}
      (lead : Inert leading) (nested : Reads children inside) (trail : Inert trailing)
      (later : Reads others behind) :
      Reads (⟨name, attributes, Event.text? leading, children⟩ :: others)
        (.start name attributes ::
          (leading ++ (inside ++ .finish :: (trailing ++ behind))))

/-- All elements can be read, whatever they hold. -/
theorem exists_reads : ∀ elements : List Element, ∃ events, Reads elements events
  | [] => ⟨[], .nil⟩
  | ⟨name, attributes, text, children⟩ :: others => by
      obtain ⟨inside, nested⟩ := exists_reads children
      obtain ⟨behind, later⟩ := exists_reads others
      have trail : Inert [] := List.forall_mem_nil _
      cases text with
      | none => exact ⟨_, .cons name attributes trail nested trail later⟩
      | some text =>
          have lead : Inert [.characters text] := by simp [Inert, Event.isInert]
          have same : Event.text? [.characters text] = some text := by
            simp [Event.text?, Event.chunks]
          have reads := Reads.cons name attributes lead nested trail later
          rw [same] at reads
          exact ⟨_, reads⟩

namespace Assembly

/-- The assembly after the end of one more element. -/
def complete (assembly : Assembly) (element : Element) : Assembly :=
  match assembly.opened with
  | [] => ⟨[], some element⟩
  | innermost :: outer => ⟨innermost.appendChild element :: outer, assembly.root⟩

/-- Further text counts for nothing: no end is due, or the innermost element has a child. -/
def Settled (assembly : Assembly) : Prop :=
  ∀ innermost ∈ assembly.opened.head?, innermost.reversed ≠ []

theorem settled_empty : empty.Settled := fun _ none => nomatch none

theorem settled_complete (assembly : Assembly) (element : Element) :
    (assembly.complete element).Settled := by
  obtain ⟨opened, root⟩ := assembly
  cases opened with
  | nil => exact fun _ none => nomatch none
  | cons innermost outer =>
      intro unfinished first
      obtain rfl := Option.some.inj first
      exact List.cons_ne_nil _ _

theorem advance_of_settled {assembly : Assembly} (settled : assembly.Settled) {event : Event}
    (inert : event.isInert = true) : assembly.advance event = .ok assembly := by
  obtain ⟨opened, root⟩ := assembly
  cases event with
  | start | finish => cases inert
  | other => rfl
  | characters chunk =>
      cases opened with
      | nil => rfl
      | cons innermost outer =>
          have child : innermost.reversed ≠ [] := settled innermost rfl
          simp [advance, Unfinished.appendText, child]

theorem foldlM_of_settled {assembly : Assembly} (settled : assembly.Settled) {events : List Event}
    (inert : Inert events) : events.foldlM advance assembly = .ok assembly := by
  induction events with
  | nil => rfl
  | cons event later ih =>
      rw [List.foldlM_cons, advance_of_settled settled (inert event List.mem_cons_self)]
      exact ih fun _ member => inert _ (List.mem_cons_of_mem event member)

/-- The chunks before the first child are appended to what there is of the text. -/
theorem foldlM_leading (name : String) (attributes : List (String × String))
    (text : Option String) (outer : List Unfinished) (root : Option Element) {events : List Event}
    (inert : Inert events) :
    events.foldlM advance ⟨⟨name, attributes, text, []⟩ :: outer, root⟩ =
      .ok ⟨⟨name, attributes, if Event.chunks events = [] then text
        else some (text.getD "" ++ String.join (Event.chunks events)), []⟩ :: outer, root⟩ := by
  induction events generalizing text with
  | nil => rfl
  | cons event later ih =>
      have rest : Inert later := fun _ member => inert _ (List.mem_cons_of_mem event member)
      cases event with
      | start | finish => cases inert _ List.mem_cons_self
      | other => exact ih text rest
      | characters chunk =>
          refine (ih (some (text.getD "" ++ chunk)) rest).trans ?_
          by_cases last : Event.chunks later = []
          · simp [Event.chunks, last]
          · simp [Event.chunks, last, String.append_assoc]

theorem advance_finish (unfinished : Unfinished) (outer : List Unfinished)
    (root : Option Element) :
    advance ⟨unfinished :: outer, root⟩ .finish =
      .ok ((⟨outer, root⟩ : Assembly).complete unfinished.finish) := by
  cases outer <;> rfl

/-- The children of an element end inside it, one after the other. -/
theorem foldl_complete (unfinished : Unfinished) (outer : List Unfinished) (root : Option Element)
    (children : List Element) :
    children.foldl complete ⟨unfinished :: outer, root⟩ =
      ⟨{ unfinished with reversed := children.reverse ++ unfinished.reversed } :: outer, root⟩ := by
  induction children generalizing unfinished with
  | nil => rfl
  | cons child later ih =>
      rw [List.foldl_cons, complete, ih, List.reverse_cons, List.append_assoc]
      rfl

/-- Of several roots the last one counts. -/
theorem root_foldl_complete {elements : List Element} (some : elements ≠ [])
    (root : Option Element) :
    (elements.foldl complete ⟨[], root⟩).root = elements.getLast some := by
  induction elements generalizing root with
  | nil => exact absurd rfl some
  | cons element later ih =>
      cases later with
      | nil => rfl
      | cons next others =>
          rw [List.getLast_cons (List.cons_ne_nil next others)]
          exact ih (List.cons_ne_nil next others) _

/-- Events that read elements bring any assembly to the one in which these elements have ended. -/
theorem assembled {elements : List Element} {events : List Event} (reads : Reads elements events)
    (assembly : Assembly) :
    events.foldlM advance assembly = .ok (elements.foldl complete assembly) := by
  induction reads generalizing assembly with
  | nil => rfl
  | @cons name attributes leading inside trailing behind children others lead _ trail _ nested
      later =>
      obtain ⟨opened, root⟩ := assembly
      let started : Unfinished := ⟨name, attributes, none, []⟩
      let led : Unfinished := ⟨name, attributes, Event.text? leading, []⟩
      let ended : Unfinished := { led with reversed := children.reverse }
      have text : leading.foldlM advance ⟨started :: opened, root⟩ =
          .ok ⟨led :: opened, root⟩ := by
        rw [foldlM_leading name attributes none opened root lead, Option.getD_none,
          String.empty_append]
        rfl
      have within : inside.foldlM advance ⟨led :: opened, root⟩ =
          .ok ⟨ended :: opened, root⟩ := by
        rw [nested, foldl_complete, List.append_nil]
      have finished : ended.finish = ⟨name, attributes, Event.text? leading, children⟩ := by
        simp [Unfinished.finish, ended, led]
      have settled := settled_complete ⟨opened, root⟩ ended.finish
      calc (Event.start name attributes ::
              (leading ++ (inside ++ .finish :: (trailing ++ behind)))).foldlM advance
              ⟨opened, root⟩
          = (leading ++ (inside ++ .finish :: (trailing ++ behind))).foldlM advance
              ⟨started :: opened, root⟩ := rfl
        _ = (Event.finish :: (trailing ++ behind)).foldlM advance ⟨ended :: opened, root⟩ := by
            rw [List.foldlM_append, text]
            change (inside ++ _).foldlM advance _ = _
            rw [List.foldlM_append, within]
            rfl
        _ = (trailing ++ behind).foldlM advance
              ((⟨opened, root⟩ : Assembly).complete ended.finish) := by
            rw [List.foldlM_cons, advance_finish]
            rfl
        _ = behind.foldlM advance ((⟨opened, root⟩ : Assembly).complete ended.finish) := by
            rw [List.foldlM_append, foldlM_of_settled settled trail]
            rfl
        _ = _ := by
            rw [later, finished]
            rfl

end Assembly

theorem ofEvents_of_assembled {events : List Event} {assembly : Assembly} {root : Element}
    (folded : events.foldlM Assembly.advance .empty = .ok assembly)
    (last : assembly.root = some root) : ofEvents events = .ok root := by
  obtain ⟨opened, found⟩ := assembly
  cases last
  rw [ofEvents, folded]
  rfl

/-- All roots can be read, and from events that read them one after the other comes the last one,
as it was read. -/
theorem ofEvents_reads {roots : List Element} (some : roots ≠ []) :
    (∃ events, Reads roots events) ∧
      ∀ before events, Inert before → Reads roots events →
        ofEvents (before ++ events) = .ok (roots.getLast some) := by
  refine ⟨exists_reads roots, fun before events inert reads => ?_⟩
  have folded : (before ++ events).foldlM Assembly.advance .empty =
      .ok (roots.foldl Assembly.complete .empty) := by
    rw [List.foldlM_append, Assembly.foldlM_of_settled Assembly.settled_empty inert]
    exact Assembly.assembled reads .empty
  exact ofEvents_of_assembled folded (Assembly.root_foldl_complete some none)

/-- The text of the last root is cut by a comment, and there is more text behind its first child,
inside the other one and around the roots. -/
theorem ofEvents_reads_second :
    let roots : List Element := [⟨"a", [], none, []⟩,
      ⟨"b", [("x", "1"), ("x", "2")], some "uv", [⟨"c", [], none, []⟩, ⟨"d", [], some "w", []⟩]⟩]
    let events : List Event := [.other, .start "a" [], .other, .finish, .characters "\n",
      .start "b" [("x", "1"), ("x", "2")], .characters "u", .other, .characters "v",
      .start "c" [], .finish, .characters "lost", .start "d" [], .characters "w", .finish, .other,
      .characters "lost", .finish, .characters "\n"]
    Reads roots events.tail ∧ ofEvents events = .ok
      ⟨"b", [("x", "1"), ("x", "2")], some "uv", [⟨"c", [], none, []⟩, ⟨"d", [], some "w", []⟩]⟩ := by
  intro roots events
  have inner : Reads [⟨"c", [], none, []⟩, ⟨"d", [], some "w", []⟩] [.start "c" [], .finish,
      .characters "lost", .start "d" [], .characters "w", .finish, .other, .characters "lost"] :=
    .cons "c" [] (show Inert [] by decide) .nil (show Inert [.characters "lost"] by decide)
      (.cons "d" [] (show Inert [.characters "w"] by decide) .nil
        (show Inert [.other, .characters "lost"] by decide) .nil)
  have reads : Reads roots events.tail :=
    .cons "a" [] (show Inert [.other] by decide) .nil (show Inert [.characters "\n"] by decide)
      (.cons "b" _ (show Inert [.characters "u", .other, .characters "v"] by decide) inner
        (show Inert [.characters "\n"] by decide) .nil)
  have before : Inert [.other] := by decide
  exact ⟨reads, (ofEvents_reads (List.cons_ne_nil _ _)).2 [.other] events.tail before reads⟩

end Element

end BusTables
