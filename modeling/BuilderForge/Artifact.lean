/-!
# Artifacts

A run hands out artifacts: units of generated text, each under an identifier
that no other artifact of the run has.
-/

namespace BuilderForge

open Std

/-- The identifier of an artifact. -/
structure ArtifactId where
  /-- The identifier as text. -/
  text : String
  deriving DecidableEq

namespace ArtifactId

/-- The name of the file that the host keeps the artifact in. -/
def fileName (id : ArtifactId) : String :=
  id.text ++ ".g.rs"

/-- Identifiers are ordered as texts. -/
instance : Ord ArtifactId := ⟨compareOn text⟩

instance : TransOrd ArtifactId := inferInstanceAs (TransCmp (compareOn text))

instance : LawfulEqOrd ArtifactId where
  eq_of_compare {a b} h := by
    cases a; cases b
    exact congrArg mk (LawfulEqOrd.eq_of_compare h)

end ArtifactId

/-- A unit of generated text under its identifier. -/
structure Artifact where
  id : ArtifactId
  text : String
  deriving DecidableEq

end BuilderForge
