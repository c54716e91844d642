/-!
# Members of a target type

A builder sets the members of its target type. A member is either settable,
assigned as a whole through its public setter, or a collection, which has
no setter and is filled by appending elements; that is decided once, when
the member is read, and carried along from then on.

Members are values: they are compared field by field, and ordered field by
field in the order name, type, kind, visibility.
-/

namespace BuilderForge

open Std

/-- Where a member or its setter can be used, from the widest to the
narrowest. -/
inductive Visibility
  | anywhere
  | inCrate
  | inParent
  | inModule
  deriving DecidableEq

namespace Visibility

/-- The name of the visibility. -/
def name : Visibility → String
  | anywhere => "Public"
  | inCrate => "Crate"
  | inParent => "Super"
  | inModule => "Private"

/-- The qualifier that grants the visibility; the narrowest needs none. -/
def qualifier : Visibility → String
  | anywhere => "pub"
  | inCrate => "pub(crate)"
  | inParent => "pub(super)"
  | inModule => ""

/-- The place of a visibility among the four. -/
def rank : Visibility → Nat
  | anywhere => 0
  | inCrate => 1
  | inParent => 2
  | inModule => 3

instance : Ord Visibility := ⟨compareOn rank⟩

instance : TransOrd Visibility := inferInstanceAs (TransCmp (compareOn rank))

theorem rank_injective {a b : Visibility} (h : a.rank = b.rank) : a = b := by
  cases a <;> cases b <;> simp_all [rank]

instance : LawfulEqOrd Visibility where
  eq_of_compare h := rank_injective (LawfulEqOrd.eq_of_compare h)

end Visibility

/-- How a builder gives a member its value. -/
inductive MemberKind
  /-- Assigned as a whole through a public setter. -/
  | settable
  /-- Filled element by element; it has no setter. -/
  | collection
  deriving DecidableEq

namespace MemberKind

/-- Settable members come before collections. -/
def rank : MemberKind → Nat
  | settable => 0
  | collection => 1

instance : Ord MemberKind := ⟨compareOn rank⟩

instance : TransOrd MemberKind := inferInstanceAs (TransCmp (compareOn rank))

theorem rank_injective {a b : MemberKind} (h : a.rank = b.rank) : a = b := by
  cases a <;> cases b <;> simp_all [rank]

instance : LawfulEqOrd MemberKind where
  eq_of_compare h := rank_injective (LawfulEqOrd.eq_of_compare h)

end MemberKind

/-- One data member of a target type. -/
structure Member where
  /-- The name, as the target type writes it. -/
  name : String
  /-- The type, as the source text writes it. -/
  typeName : String
  /-- How the member gets its value. -/
  kind : MemberKind
  /-- Where the member itself can be used. -/
  visibility : Visibility
  deriving DecidableEq

namespace Member

/-- Whether the member is filled by appending elements. -/
def isCollection (member : Member) : Bool :=
  member.kind = .collection

/-- Whether the member has a public setter; exactly the collections have none. -/
def hasPublicSetter (member : Member) : Bool :=
  !member.isCollection

/-- The member with another type. -/
def withTypeName (member : Member) (typeName : String) : Member :=
  { member with typeName }

/-- The order of members, field by field. -/
instance : Ord Member where
  compare := compareLex (compareOn name) <| compareLex (compareOn typeName) <|
    compareLex (compareOn kind) (compareOn visibility)

instance : TransOrd Member :=
  inferInstanceAs (TransCmp (compareLex (compareOn name) <| compareLex (compareOn typeName) <|
    compareLex (compareOn kind) (compareOn visibility)))

instance : LawfulEqOrd Member where
  eq_of_compare {a b} h := by
    obtain ⟨hname, h⟩ := Ordering.then_eq_eq.1 h
    obtain ⟨htype, h⟩ := Ordering.then_eq_eq.1 h
    obtain ⟨hkind, hvis⟩ := Ordering.then_eq_eq.1 h
    cases a; cases b
    simp only [mk.injEq]
    exact ⟨LawfulEqOrd.eq_of_compare hname, LawfulEqOrd.eq_of_compare htype,
      LawfulEqOrd.eq_of_compare hkind, LawfulEqOrd.eq_of_compare hvis⟩

end Member

end BuilderForge
