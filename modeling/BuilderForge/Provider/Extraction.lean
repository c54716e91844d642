import BuilderForge.Listing.FirstOccurrence
import BuilderForge.Provider.Catalog
import BuilderForge.Spec

/-!
# Extraction

Extraction reads a declaration and everything it needs of the catalog, and
gives a specification that refers to neither.

A builder can set a member that has a public setter, and it can fill a
member that has no setter but is of a collection type; nothing else. Of
several members with one name along the base types, the most derived one
counts, also if it is one that the builder cannot set.
-/

namespace BuilderForge

/-- The member as a builder sees it, if it can give it a value. -/
def MemberInfo.model? (info : MemberInfo) : Option Member :=
  match info.setter with
  | none =>
    if info.isCollectionType then some ⟨info.name, info.typeName, .collection, info.visibility⟩
    else none
  | some .anywhere => some ⟨info.name, info.typeName, .settable, info.visibility⟩
  | some _ => none

namespace Catalog

/-- The members that count along a chain of types, the first of each name. -/
def visibleMembers (types : List TypeInfo) : List MemberInfo :=
  firstBy MemberInfo.name (types.flatMap TypeInfo.members)

/-- The members that a builder of the type at `index` can give a value, the
most derived type first, in the order of declaration. -/
def collect (catalog : Catalog) (index : Nat) : List Member :=
  (visibleMembers (catalog.chain index)).filterMap MemberInfo.model?

end Catalog

namespace Declaration

/-- The specification that a declaration gives; none if it names no type. -/
def extract (catalog : Catalog) (declaration : Declaration) : Option BuilderSpec :=
  match declaration.argument with
  | .type index => catalog[index]?.map fun target =>
      .ofMembers declaration.name declaration.scope target.fullName (catalog.collect index)
  | .missing | .malformed _ => none

/-- Whether the run is called off while the declaration is extracted. -/
def cancelsExtraction (catalog : Catalog) (declaration : Declaration) : Bool :=
  declaration.cancels ||
    match declaration.argument with
    | .type index => (catalog.chain index).any (·.cancels)
    | .missing | .malformed _ => false

/-- A specification belongs to the builder that is declared. -/
theorem key_of_extract {catalog : Catalog} {declaration : Declaration} {spec : BuilderSpec}
    (h : declaration.extract catalog = some spec) :
    spec.key = ⟨declaration.scope, declaration.name⟩ := by
  unfold extract at h
  split at h
  · obtain ⟨target, -, rfl⟩ := Option.map_eq_some_iff.1 h
    rfl
  · cases h
  · cases h

end Declaration

end BuilderForge
