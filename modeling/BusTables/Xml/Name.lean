import Std.Data.HashSet
import BusTables.Xml.Character

/-!
# Qualified names

A name is a base, or a qualifier and a base with a colon between them.  The qualifiers `xml` and
`xmlns` are reserved.
-/

namespace BusTables.Xml

/-- The name of an element or of an attribute. -/
structure Name where
  qualifier : Option (List Char)
  base : List Char
  deriving DecidableEq, Repr

instance : Hashable Name where
  hash name :=
    mixHash (String.ofList (name.qualifier.getD [])).hash (String.ofList name.base).hash

namespace Name

/-- The qualifier that is bound in every document. -/
def xml : List Char := "xml".toList

/-- The qualifier of namespace declarations. -/
def xmlns : List Char := "xmlns".toList

/-- The namespace to which `xml` is bound. -/
def xmlNamespace : List Char := "http://www.w3.org/XML/1998/namespace".toList

/-- The namespace of namespace declarations. -/
def xmlnsNamespace : List Char := "http://www.w3.org/2000/xmlns/".toList

/-- The name that some characters spell. -/
def ofCharacters? (characters : List Char) : Option Name :=
  match characters.splitOn ':' with
  | [base] => if base.isEmpty then none else some ⟨none, base⟩
  | [qualifier, base] =>
      if qualifier.isEmpty || base.isEmpty then none else some ⟨some qualifier, base⟩
  | _ => none

/-- No name occurs twice, or has been seen before. -/
def areNew (seen : Std.HashSet Name) : List Name → Bool
  | [] => true
  | name :: later => !seen.contains name && areNew (seen.insert name) later

/-- No name occurs twice. -/
def areDistinct (names : List Name) : Bool := areNew ∅ names

theorem areNew_iff {seen : Std.HashSet Name} {names : List Name} :
    areNew seen names = true ↔ names.Nodup ∧ ∀ name ∈ names, name ∉ seen := by
  induction names generalizing seen with
  | nil => simp [areNew]
  | cons name later ih =>
      simp only [areNew, Bool.and_eq_true, Bool.not_eq_true', ih, Std.HashSet.mem_insert,
        List.nodup_cons, List.forall_mem_cons]
      grind

theorem areDistinct_iff {names : List Name} : areDistinct names = true ↔ names.Nodup := by
  simp [areDistinct, areNew_iff]

/-- No element has a reserved qualifier. -/
def isElementName (name : Name) : Bool :=
  name.qualifier != some xml && name.qualifier != some xmlns

end Name

/-- What an attribute with a given name and value is. -/
inductive AttributeRole where
  /-- An attribute of the element. -/
  | plain
  /-- The declaration of a qualifier. -/
  | qualifier (qualifier : List Char)
  /-- The declaration of the default namespace. -/
  | default
  deriving DecidableEq, Repr

/-- The role of an attribute; `none` if it redefines what is reserved. -/
def Name.role? (name : Name) (value : List Char) : Option AttributeRole :=
  if name.qualifier = some Name.xmlns then
    if name.base = Name.xmlns then none
    else if name.base = Name.xml ∧ value ≠ Name.xmlNamespace then none
    else if value.isEmpty then none
    else some (.qualifier name.base)
  else if name = ⟨none, Name.xmlns⟩ then
    if value ∈ [Name.xmlns, Name.xml, Name.xmlNamespace, Name.xmlnsNamespace] then none
    else some .default
  else some .plain

end BusTables.Xml
