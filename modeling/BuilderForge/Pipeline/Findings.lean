import BuilderForge.Emission.Outcome
import BuilderForge.Merge
import BuilderForge.Naming.Resolution
import BuilderForge.Stage.Report

/-!
# What a run finds

A run has three things to say about builders: that the fragments of one
disagree on the target, that one could not get its base identifier, and that
one could not be written. The findings of a kind stand together, ascending
by key.
-/

namespace BuilderForge

/-- The warning about fragments that disagree on the target, if they do. -/
def conflictFinding? (output : StageOutput BuilderKey MergedBuilder) : Option Diagnostic :=
  if output.value.hasConflicts then
    some {
      code := .conflictingTargets
      severity := .warning
      message := "fragments of builder '" ++ output.key.display ++
        "' name different target types; using '" ++ output.value.spec.target ++ "'"
      notes := output.value.conflictingTargets.map fun target =>
        "ignored target '" ++ target ++ "'" }
  else none

/-- The holder of an identifier in words. -/
def Naming.Holder.display : Naming.Holder → String
  | support => "a support artifact"
  | builder key => "builder '" ++ key.display ++ "'"

/-- The warning about a builder that could not get its base. -/
def collisionFinding (assignment : Naming.Assignment) (holder : Naming.Holder) : Diagnostic where
  code := .identifierCollision
  severity := .warning
  message := "builder '" ++ assignment.key.display ++ "' maps to artifact '" ++ assignment.base ++
    "', already used by " ++ holder.display
  notes := ["generated as '" ++ assignment.id.text ++ "'"]

/-- Everything a run has to say, given its merged builders, their
identifiers and their texts. -/
def findings (merged : List (StageOutput BuilderKey MergedBuilder)) (resolution : Resolution)
    (emitted : List (StageOutput BuilderKey EmitOutcome)) : List Diagnostic :=
  merged.filterMap conflictFinding? ++
    resolution.collisions.map (fun (assignment, holder) => collisionFinding assignment holder) ++
    emitted.filterMap fun output => output.value.diagnostic?

end BuilderForge
