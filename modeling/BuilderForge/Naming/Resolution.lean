import BuilderForge.Emission.Support
import BuilderForge.Listing.Ascending
import BuilderForge.Naming.Base
import BuilderForge.Spec

/-!
# Identifiers without clashes

Different builders can have the same base identifier, and a base can be one
that the support artifacts have. All builders of a run get their identifiers
together, in the order of their keys: each gets its base if that is still
free, and otherwise the base with the least free number behind it, from two
on. The result depends on the set of keys alone.
-/

namespace BuilderForge

namespace Naming

/-- Who has an identifier. -/
inductive Holder
  /-- An artifact that every run hands out. -/
  | support
  /-- Another builder. -/
  | builder (key : BuilderKey)
  deriving DecidableEq

/-- The identifier that a builder gets. -/
structure Assignment where
  key : BuilderKey
  /-- The identifier that the builder would have had alone. -/
  base : String
  /-- The identifier that it got. -/
  id : ArtifactId
  /-- Who has the base, if the builder could not get it. -/
  holder : Option Holder
  deriving DecidableEq

/-- A base with a number behind it. -/
def numbered (base : String) (n : Nat) : String :=
  base ++ "_" ++ toString n

/-- The least number from `n` on that makes a base differ from all that is
taken. A number that does not is dropped from what is taken, for no later
number gives the same text, so the search ends. -/
def freeNumber (base : String) (taken : List String) (n : Nat) : Nat :=
  if numbered base n ∈ taken then freeNumber base (taken.erase (numbered base n)) (n + 1)
  else n
  termination_by taken.length
  decreasing_by
    rename_i h
    rw [List.length_erase_of_mem h]
    exact Nat.sub_one_lt (Nat.ne_of_gt (List.length_pos_of_mem h))

/-- The identifier of one builder, given the identifiers that are taken. -/
def assign (taken : List (String × Holder)) (key : BuilderKey) : Assignment :=
  let base := baseIdentifier key.scope key.name
  match taken.lookup base with
  | none => ⟨key, base, ⟨base⟩, none⟩
  | some holder =>
    ⟨key, base, ⟨numbered base (freeNumber base (taken.map Prod.fst) 2)⟩, some holder⟩

/-- The identifiers of builders, one after the other; each takes its own. -/
def assignAll (taken : List (String × Holder)) : List BuilderKey → List Assignment
  | [] => []
  | key :: rest =>
    let assignment := assign taken key
    assignment :: assignAll ((assignment.id.text, .builder key) :: taken) rest

/-- The identifiers of the support artifacts. -/
def reserved : List (String × Holder) :=
  [(markerId.text, .support), (rulesId.text, .support)]

end Naming

/-- The identifiers of all builders of a run. -/
structure Resolution where
  /-- One assignment for each key, in the order of the keys. -/
  assignments : List Naming.Assignment
  deriving DecidableEq

namespace Resolution

/-- Gives every key its identifier, however often it is listed. -/
def ofKeys (keys : List BuilderKey) : Resolution :=
  ⟨Naming.assignAll Naming.reserved (distinctAscending keys)⟩

/-- The identifier of a builder. -/
def id? (resolution : Resolution) (key : BuilderKey) : Option ArtifactId :=
  (resolution.assignments.find? (·.key = key)).map (·.id)

/-- The builders that could not get their bases, each with the holder of its
base. -/
def collisions (resolution : Resolution) : List (Naming.Assignment × Naming.Holder) :=
  resolution.assignments.filterMap fun assignment =>
    assignment.holder.map fun holder => (assignment, holder)

end Resolution

end BuilderForge
