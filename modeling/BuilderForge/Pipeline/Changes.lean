import BuilderForge.Artifact
import BuilderForge.Stage.Settlement

/-!
# Changes of the artifacts

A host keeps the artifacts of the last complete run. After the next one it
has to know which identifiers are new, which are gone, and which have
another text; the rest it can leave alone.
-/

namespace BuilderForge

/-- The identifiers whose artifacts differ from those of the last complete
run. -/
structure OutputChanges where
  /-- Identifiers that are new. -/
  added : List ArtifactId
  /-- Identifiers that are gone. -/
  removed : List ArtifactId
  /-- Identifiers whose texts are others. -/
  changed : List ArtifactId
  deriving DecidableEq

/-- Artifacts by identifier. -/
abbrev Published := Table ArtifactId String

namespace OutputChanges

/-- No changes. -/
def none : OutputChanges := ⟨[], [], []⟩

/-- Whether nothing differs. -/
def isEmpty (changes : OutputChanges) : Bool :=
  changes.added.isEmpty && changes.removed.isEmpty && changes.changed.isEmpty

/-- What leads from the published artifacts to the given ones. -/
def between (published : Published) (artifacts : List Artifact) : OutputChanges where
  added := (artifacts.filter fun artifact => published[artifact.id]?.isNone).map Artifact.id
  removed := published.keys.filter fun id => id ∉ artifacts.map Artifact.id
  changed := (artifacts.filter fun artifact =>
    published[artifact.id]?.any fun text => text ≠ artifact.text).map Artifact.id

end OutputChanges

/-- The given artifacts, published. -/
def Published.ofArtifacts (artifacts : List Artifact) : Published :=
  (∅ : Published).insertMany (artifacts.map fun artifact => (artifact.id, artifact.text))

end BuilderForge
