import BusTables.Xml.Character

/-!
# References

A reference names a character by its number or by one of five names, or a declared entity by the
name under which its text was declared.
-/

namespace BusTables.Xml

/-- The texts of the declared entities, the first declaration of each name first. -/
abbrev Entities := List (List Char × List Char)

/-- A declaration counts only if the name has none yet. -/
def Entities.declare (entities : Entities) (name text : List Char) : Entities :=
  match entities.lookup name with
  | some _ => entities
  | none => (name, text) :: entities

namespace Reference

/-- The names of characters. -/
def named : List (List Char × Char) :=
  [("lt".toList, '<'), ("gt".toList, '>'), ("amp".toList, '&'), ("apos".toList, '\''),
    ("quot".toList, '"')]

/-- The value of a digit below a base. -/
def digit? (base : Nat) (character : Char) : Option Nat :=
  let code := character.toNat
  let value? : Option Nat :=
    if 0x30 ≤ code ∧ code ≤ 0x39 then some (code - 0x30)
    else if 0x41 ≤ code ∧ code ≤ 0x46 then some (code - 0x41 + 10)
    else if 0x61 ≤ code ∧ code ≤ 0x66 then some (code - 0x61 + 10)
    else none
  value?.filter (· < base)

/-- No character has this number or a greater one. -/
def ceiling : Nat := 0x110000

/-- The number that digits of a base spell, or the ceiling if that is less. -/
def unsigned? (base : Nat) (digits : List Char) : Option Nat :=
  if digits.isEmpty then none
  else
    (digits.mapM (digit? base)).map
      (·.foldl (fun total digit => min (total * base + digit) ceiling) 0)

/-- The number that digits of a base spell, up to the ceiling; a plus sign may come first. -/
def number? (base : Nat) : List Char → Option Nat
  | '+' :: digits => unsigned? base digits
  | digits => unsigned? base digits

/-- The character that a numeric reference means, given what follows its mark. -/
def numeric? (version : Version) (spelled : List Char) : Option Char := do
  let code ←
    match spelled with
    | 'x' :: digits => number? 16 digits
    | digits => number? 10 digits
  if code.isValidChar ∧ version.admits (Char.ofNat code) then some (Char.ofNat code) else none

end Reference

/-- What a reference stands for. -/
inductive Referent where
  | character (character : Char)
  | entity (text : List Char)
  deriving DecidableEq, Repr

/-- What the reference with a given name stands for. -/
def Referent.ofName? (version : Version) (entities : Entities) (name : List Char) :
    Option Referent :=
  match Reference.named.lookup name with
  | some found => some (.character found)
  | none =>
      match name with
      | '#' :: spelled => (Reference.numeric? version spelled).map .character
      | _ => (entities.lookup name).map .entity

end BusTables.Xml
