import BuilderForge.Member
import BuilderForge.Shape.Structural

/-!
# What the front end provides

A front end finds the declarations of builders and knows the types they
name. Its objects are its own: they may change between runs and are never
compared, and only the extraction reads them. Here they are the entries of a
catalog of types, and declarations that point into it.

The walk along the base types of a type stops at the first type whose full
name was seen before, so it ends also where a broken front end lets types be
their own bases.

Reading an object can be the moment when the host calls the run off. Such
objects are marked, for a run has to cope with it at any time.
-/

namespace BuilderForge

/-- A member as the front end sees it. -/
structure MemberInfo where
  name : String
  typeName : String
  /-- The visibility of the setter, none if the member is read-only. -/
  setter : Option Visibility
  /-- The visibility of the member itself. -/
  visibility : Visibility
  /-- Whether elements can be appended to values of the member's type. -/
  isCollectionType : Bool

/-- A type as the front end sees it. -/
structure TypeInfo where
  fullName : String
  /-- The members declared on the type itself. -/
  members : List MemberInfo
  /-- The place in the catalog of the type it inherits from. -/
  base : Option Nat
  /-- Whether the run is called off while the members are read. -/
  cancels : Bool

/-- The types that the front end knows. -/
abbrev Catalog := List TypeInfo

/-- The target type of a builder as the front end resolved it. -/
inductive MarkerArgument
  /-- A type of the catalog. -/
  | type (index : Nat)
  /-- No target is named. -/
  | missing
  /-- What is named is no type. -/
  | malformed (text : String)

/-- A declaration of a builder. -/
structure Declaration where
  id : DeclarationId
  /-- The namespace of the builder. -/
  scope : String
  /-- The name of the builder. -/
  name : String
  /-- The target it names. -/
  argument : MarkerArgument
  /-- Whether the run is called off while the target is read. -/
  cancels : Bool

instance : Structural MemberInfo := ⟨fun _ => .foreign "MemberSymbol"⟩

instance : Structural TypeInfo := ⟨fun _ => .foreign "TypeSymbol"⟩

instance : Structural Declaration := ⟨fun _ => .foreign "DeclarationSymbol"⟩

instance : Structural MarkerArgument where
  shape
    | .type _ => .variant "MarkerArgument" "Type" [("0", .foreign "TypeSymbol")]
    | .missing => .unitVariant "MarkerArgument" "Missing"
    | .malformed text => .variant "MarkerArgument" "Malformed" [("0", shape text)]

namespace Catalog

/-- The number of types whose full names are not among `seen`. -/
def unseen (catalog : Catalog) (seen : List String) : Nat :=
  (catalog.filter fun type => type.fullName ∉ seen).length

/-- Seeing a type for the first time leaves fewer to see. -/
theorem unseen_lt {catalog : Catalog} {seen : List String} {type : TypeInfo}
    (hmem : type ∈ catalog) (hnew : type.fullName ∉ seen) :
    catalog.unseen (type.fullName :: seen) < catalog.unseen seen := by
  have hfilter : (catalog.filter fun t => t.fullName ∉ type.fullName :: seen) =
      (catalog.filter fun t => t.fullName ∉ seen).filter fun t => t.fullName ≠ type.fullName := by
    simp [List.filter_filter]
  unfold unseen
  rw [hfilter, List.length_filter_lt_length_iff_exists]
  exact ⟨type, List.mem_filter.2 ⟨hmem, by simpa using hnew⟩, by simp⟩

/-- What is found at a place of the catalog is in it. -/
theorem mem_of_next {catalog : Catalog} {next : Option Nat} {type : TypeInfo}
    (h : next.bind (catalog[·]?) = some type) : type ∈ catalog := by
  obtain ⟨index, -, hindex⟩ := Option.bind_eq_some_iff.1 h
  exact List.mem_of_getElem? hindex

/-- The types from the one at `next` on along the bases, up to the first
whose full name was seen before. -/
def chainFrom (catalog : Catalog) (seen : List String) (next : Option Nat) : List TypeInfo :=
  match h : next.bind (catalog[·]?) with
  | none => []
  | some type =>
    if hseen : type.fullName ∈ seen then []
    else
      have : catalog.unseen (type.fullName :: seen) < catalog.unseen seen :=
        unseen_lt (mem_of_next h) hseen
      type :: chainFrom catalog (type.fullName :: seen) type.base
  termination_by catalog.unseen seen

/-- A type of the catalog and its bases, the most derived first. -/
def chain (catalog : Catalog) (index : Nat) : List TypeInfo :=
  chainFrom catalog [] (some index)

end Catalog

end BuilderForge
