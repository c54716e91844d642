import BuilderForge.Spec

/-!
# Size estimates

Before a builder is written, the size of its text is estimated in bytes:
a fixed amount for the frame, an amount for each member that grows with its
names, something more for a collection, and five percent on top. The
estimate never decides what is written.
-/

namespace BuilderForge

/-- The frame up to the members: banner, struct opening and constructors. -/
def headerCost : Nat := 900

/-- The frame behind the members. -/
def footerCost : Nat := 250

/-- A member's field, its setters and its part of `build`. -/
def memberCost : Nat := 420

/-- The loop that a collection needs in `build`. -/
def collectionCost : Nat := 150

/-- What one member adds to the estimate. -/
def Member.cost (member : Member) : Nat :=
  memberCost + member.name.utf8ByteSize + member.typeName.utf8ByteSize

/-- What members add to the estimate together. -/
def Member.totalCost : List Member → Nat
  | [] => 0
  | member :: rest => member.cost + totalCost rest

/-- The estimated size of a builder's text in bytes, rounded down. -/
def BuilderSpec.capacity (spec : BuilderSpec) : Nat :=
  let fixed := headerCost + footerCost + spec.name.utf8ByteSize + spec.target.utf8ByteSize
  let members := Member.totalCost spec.members
  let collections := spec.collections.length * collectionCost
  (fixed + members + collections) * 105 / 100

end BuilderForge
