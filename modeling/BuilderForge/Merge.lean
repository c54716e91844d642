import BuilderForge.Listing.Ascending
import BuilderForge.Listing.FirstOccurrence
import BuilderForge.Shape.Structural
import BuilderForge.Spec

/-!
# Merging fragments

A builder may be declared in several fragments that share its key. They are
merged into one specification, so that one builder gives one artifact. If
the fragments do not agree on the target, the least target wins; only the
fragments that name it contribute members, and the other targets are kept
for a warning. Members are united by name, and the first fragment that has
a name decides what it means.
-/

namespace BuilderForge

/-- The specification of one builder, merged from all its fragments. -/
structure MergedBuilder where
  spec : BuilderSpec
  /-- The targets that some fragments name and that were not chosen,
  ascending. -/
  conflictingTargets : List String
  deriving DecidableEq

namespace MergedBuilder

/-- Whether the fragments disagreed on the target. -/
def hasConflicts (merged : MergedBuilder) : Bool :=
  !merged.conflictingTargets.isEmpty

instance : Structural MergedBuilder where
  shape merged := .record "MergedBuilder"
    [("spec", shape merged.spec), ("conflicting_targets", shape merged.conflictingTargets)]

end MergedBuilder

/-- The members of the fragments that name `target`, the first of each name. -/
def unitedMembers (target : String) (fragments : List BuilderSpec) : List Member :=
  firstBy Member.name
    ((fragments.filter fun fragment => fragment.target = target).flatMap BuilderSpec.members)

/-- Merges the fragments of one builder; no fragments give an empty
specification. -/
def mergeFragments (fragments : List BuilderSpec) : MergedBuilder :=
  match fragments, distinctAscending (fragments.map BuilderSpec.target) with
  | first :: _, target :: others =>
    ⟨.ofMembers first.name first.scope target (unitedMembers target fragments), others⟩
  | _, _ => ⟨.ofMembers "" "" "" [], []⟩

end BuilderForge
