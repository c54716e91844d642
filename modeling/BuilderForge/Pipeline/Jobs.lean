import BuilderForge.Merge
import BuilderForge.Provider.Extraction
import BuilderForge.Stage.Sweep
import BuilderForge.Stage.Report

/-!
# The jobs of the stages

A batch is what the front end hands over for one run. Its declarations are
the jobs of the extraction; the extracted specifications, grouped by
builder, are those of the merge; and the merged specifications are those of
the emission.

A job of the extraction is marked where the run is called off while its
declaration is read, be it by the front end's own objects or by the host
meanwhile. Merging and emitting reads nothing from outside: the jobs are made
unmarked, and what marks them, if anything, is a signal of the host.
-/

namespace BuilderForge

/-- What the front end hands over for one run. -/
structure Batch where
  catalog : Catalog
  declarations : List Declaration

namespace Batch

/-- One job for each declaration; of several with one identity the first
counts. -/
def extractionJobs (batch : Batch) : List (Job DeclarationId Declaration) :=
  (firstBy Declaration.id batch.declarations).map fun declaration =>
    ⟨declaration.id, declaration, declaration.cancelsExtraction batch.catalog⟩

/-- The batch as it is read when nothing calls the run off. -/
def undisturbed (batch : Batch) : Batch where
  catalog := batch.catalog.map fun type => { type with cancels := false }
  declarations := batch.declarations.map fun declaration => { declaration with cancels := false }

end Batch

/-- The fragments of a builder, ascending. -/
def fragmentsOf (specs : List BuilderSpec) (key : BuilderKey) : List BuilderSpec :=
  ascending (specs.filter fun spec => spec.key = key)

/-- One job for each builder that has fragments, ascending by key. -/
def mergeJobs (specs : List BuilderSpec) : List (Job BuilderKey (List BuilderSpec)) :=
  (distinctAscending (specs.map BuilderSpec.key)).map fun key => ⟨key, fragmentsOf specs key, false⟩

/-- One job for each merged builder. -/
def emissionJobs (merged : List (StageOutput BuilderKey MergedBuilder)) :
    List (Job BuilderKey BuilderSpec) :=
  merged.map fun output => ⟨output.key, output.value.spec, false⟩

end BuilderForge
