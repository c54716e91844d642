import BuilderForge.Listing.Ascending
import BuilderForge.Member

/-!
# Builder specifications

A `BuilderSpec` says which builder to generate: its name, the namespace it
lives in, the type it builds and the members it can set. It is a plain
value, read anew from the declarations in every run, and serves both as a
key of the caches and as the input of the emission.

A specification has one form only. Its members are parted by kind and each
part is sorted, and the type carries the proofs of both, so two
specifications with the same members are equal however the members came.
-/

namespace BuilderForge

open Std

/-- Identity of one declaration of a builder, assigned by the front end. -/
structure DeclarationId where
  /-- The number the front end assigned. -/
  raw : UInt32
  deriving DecidableEq

namespace DeclarationId

/-- The identity as text. -/
def display (id : DeclarationId) : String :=
  "decl#" ++ toString id.raw.toNat

instance : Ord DeclarationId := ⟨compareOn raw⟩

instance : TransOrd DeclarationId := inferInstanceAs (TransCmp (compareOn raw))

instance : LawfulEqOrd DeclarationId where
  eq_of_compare {a b} h := by
    cases a; cases b
    exact congrArg mk (LawfulEqOrd.eq_of_compare h)

end DeclarationId

/-- Identity of a builder: all declarations with the same namespace and name
describe the same builder. -/
structure BuilderKey where
  /-- The namespace, empty at the root. -/
  scope : String
  /-- The name of the builder. -/
  name : String
  deriving DecidableEq

namespace BuilderKey

/-- The key as text: the name, behind the namespace if there is one. -/
def display (key : BuilderKey) : String :=
  if key.scope = "" then key.name else key.scope ++ "::" ++ key.name

/-- Keys are ordered by namespace, then by name. -/
instance : Ord BuilderKey where
  compare := compareLex (compareOn scope) (compareOn name)

instance : TransOrd BuilderKey :=
  inferInstanceAs (TransCmp (compareLex (compareOn scope) (compareOn name)))

instance : LawfulEqOrd BuilderKey where
  eq_of_compare {a b} h := by
    obtain ⟨hscope, hname⟩ := Ordering.then_eq_eq.1 h
    cases a; cases b
    simp only [mk.injEq]
    exact ⟨LawfulEqOrd.eq_of_compare hscope, LawfulEqOrd.eq_of_compare hname⟩

end BuilderKey

/-- What one builder is to be. -/
structure BuilderSpec where
  /-- The name of the builder. -/
  name : String
  /-- The namespace, empty at the root. -/
  scope : String
  /-- The full name of the type it builds. -/
  target : String
  /-- The members assigned as a whole. -/
  normal : List Member
  /-- The members filled element by element. -/
  collections : List Member
  normal_settable : ∀ m ∈ normal, m.kind = .settable
  normal_ascends : normal.Pairwise fun a b => (compare a b).isLE
  collections_collection : ∀ m ∈ collections, m.kind = .collection
  collections_ascends : collections.Pairwise fun a b => (compare a b).isLE
  deriving DecidableEq

namespace BuilderSpec

/-- The specification with the given members, in whatever order they come
and however often they repeat. -/
def ofMembers (name scope target : String) (members : List Member) : BuilderSpec where
  name
  scope
  target
  normal := ascending (members.filter fun m => m.kind = .settable)
  collections := ascending (members.filter fun m => m.kind = .collection)
  normal_settable := by simp
  normal_ascends := pairwise_ascendingBy id _
  collections_collection := by simp
  collections_ascends := pairwise_ascendingBy id _

/-- The members, those assigned as a whole first. -/
def members (spec : BuilderSpec) : List Member :=
  spec.normal ++ spec.collections

/-- The builder that the specification describes. -/
def key (spec : BuilderSpec) : BuilderKey where
  scope := spec.scope
  name := spec.name

/-- The order of specifications, field by field; a shorter list of members
comes before its extensions. -/
instance : Ord BuilderSpec where
  compare := compareLex (compareOn name) <| compareLex (compareOn scope) <|
    compareLex (compareOn target) <| compareLex (compareOn normal) (compareOn collections)

instance : TransOrd BuilderSpec :=
  inferInstanceAs (TransCmp (compareLex (compareOn name) <| compareLex (compareOn scope) <|
    compareLex (compareOn target) <| compareLex (compareOn normal) (compareOn collections)))

instance : LawfulEqOrd BuilderSpec where
  eq_of_compare {a b} h := by
    obtain ⟨hname, h⟩ := Ordering.then_eq_eq.1 h
    obtain ⟨hscope, h⟩ := Ordering.then_eq_eq.1 h
    obtain ⟨htarget, h⟩ := Ordering.then_eq_eq.1 h
    obtain ⟨hnormal, hcollections⟩ := Ordering.then_eq_eq.1 h
    cases a; cases b
    simp only [mk.injEq]
    exact ⟨LawfulEqOrd.eq_of_compare hname, LawfulEqOrd.eq_of_compare hscope,
      LawfulEqOrd.eq_of_compare htarget, LawfulEqOrd.eq_of_compare hnormal,
      LawfulEqOrd.eq_of_compare hcollections⟩

@[simp]
theorem key_ofMembers (name scope target : String) (members : List Member) :
    (ofMembers name scope target members).key = ⟨scope, name⟩ := rfl

/-- A specification has the members it was made of. -/
@[simp]
theorem mem_members_ofMembers {name scope target : String} {members : List Member} {m : Member} :
    m ∈ (ofMembers name scope target members).members ↔ m ∈ members := by
  cases h : m.kind <;> simp [BuilderSpec.members, ofMembers, h]

end BuilderSpec

end BuilderForge
