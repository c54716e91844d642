import BuilderForge.Pipeline.Changes
import BuilderForge.Pipeline.Config
import BuilderForge.Pipeline.Findings
import BuilderForge.Pipeline.Jobs
import BuilderForge.Stage.Memo

/-!
# Pipeline runs

A pipeline is run once for each batch of declarations. Declarations are
extracted into specifications, the specifications of each builder are
merged, every merged builder gets its identifier, and its text is emitted.
The stages remember what they did, so a run only does again what differs;
what it answers is the same as if nothing were remembered.

A run that is called off hands out what it has finished. It reports no
changes, and the artifacts of the last complete run stay published. It may be
called off at any time: beforehand, over a declaration while it is read, or,
once all are read, at a signal of the host (`Signals`).
-/

namespace BuilderForge

/-- A generator that remembers its earlier runs. -/
structure Pipeline where
  config : GeneratorConfig
  extraction : TrackedStage DeclarationId BuilderSpec
  merge : MemoStage BuilderKey (List BuilderSpec) MergedBuilder
  emission : MemoStage BuilderKey BuilderSpec EmitOutcome
  /-- The artifacts of the last complete run. -/
  published : Published

/-- Everything one run produced. -/
structure RunResult where
  /-- The artifacts, ascending by identifier. -/
  artifacts : List Artifact
  diagnostics : List Diagnostic
  extraction : StageReport DeclarationId BuilderSpec
  merge : StageReport BuilderKey MergedBuilder
  emission : StageReport BuilderKey EmitOutcome
  /-- What differs from the last complete run; nothing if the run was called
  off. -/
  changes : OutputChanges
  /-- Whether the run was called off. -/
  cancelled : Bool

/-- The artifacts of a run: those that every run hands out, and one for each
builder that has a text and an identifier. -/
def artifactsOf (options : EmitOptions) (resolution : Resolution)
    (emitted : List (StageOutput BuilderKey EmitOutcome)) : List Artifact :=
  ascendingBy Artifact.id <| supportArtifacts options ++ emitted.filterMap fun output => do
    let text ← output.value.text?
    let id ← resolution.id? output.key
    return ⟨id, text⟩

namespace RunResult

/-- The artifact with the given identifier. -/
def artifact? (result : RunResult) (id : ArtifactId) : Option Artifact :=
  result.artifacts.find? fun artifact => artifact.id = id

/-- Whether some builder could not be written. -/
def hasErrors (result : RunResult) : Bool :=
  result.diagnostics.any Diagnostic.isError

/-- What a run comes to, given the reports of its stages and the artifacts
that were published before it. -/
def ofReports (options : EmitOptions) (published : Published)
    (extraction : StageReport DeclarationId BuilderSpec)
    (merge : StageReport BuilderKey MergedBuilder)
    (emission : StageReport BuilderKey EmitOutcome) : RunResult :=
  let resolution := Resolution.ofKeys (merge.live.map StageOutput.key)
  let artifacts := artifactsOf options resolution emission.live
  let cancelled := !(extraction.complete && merge.complete && emission.complete)
  { artifacts
    diagnostics := findings merge.live resolution emission.live
    extraction
    merge
    emission
    changes := if cancelled then .none else .between published artifacts
    cancelled }

end RunResult

/-- When the host calls a run off, if it does so after the declarations are
read. -/
structure Signals where
  merge : Signal BuilderKey
  emission : Signal BuilderKey
  deriving DecidableEq

/-- The host leaves the run alone. -/
def Signals.none : Signals := ⟨.never, .never⟩

namespace Pipeline

/-- A pipeline that has not run yet. -/
def new (config : GeneratorConfig) : Pipeline where
  config
  extraction := .empty .initialExtraction
  merge := .empty .mergingFragments
  emission := .empty .emission
  published := ∅

/-- The extraction of a batch, beginning with the flag up or down. -/
def runExtraction (pipeline : Pipeline) (batch : Batch) (flag : Bool) :
    StageRun (TrackedStage DeclarationId BuilderSpec) DeclarationId Declaration BuilderSpec :=
  pipeline.extraction.run batch.extractionJobs (Declaration.extract batch.catalog) flag

/-- The merge of what was extracted. A flag that went up stays up. -/
def runMerge (pipeline : Pipeline) (extraction : StageReport DeclarationId BuilderSpec)
    (signal : Signal BuilderKey) :
    StageRun (MemoStage BuilderKey (List BuilderSpec) MergedBuilder) BuilderKey
      (List BuilderSpec) MergedBuilder :=
  pipeline.merge.run (signal.mark (mergeJobs (extraction.live.map StageOutput.value)))
    mergeFragments (signal.startingFlag !extraction.complete)

/-- The emission of what was merged. A flag that went up stays up. -/
def runEmission (pipeline : Pipeline) (merge : StageReport BuilderKey MergedBuilder)
    (signal : Signal BuilderKey) :
    StageRun (MemoStage BuilderKey BuilderSpec EmitOutcome) BuilderKey BuilderSpec EmitOutcome :=
  pipeline.emission.run (signal.mark (emissionJobs merge.live))
    (.ofSpec pipeline.config.options) (signal.startingFlag !merge.complete)

/-- Runs the pipeline on a batch, beginning with the flag up or down, under
the signals of a host. -/
def runUnder (pipeline : Pipeline) (batch : Batch) (flag : Bool) (signals : Signals) :
    Pipeline × RunResult :=
  let extraction := pipeline.runExtraction batch flag
  let merge := pipeline.runMerge extraction.report signals.merge
  let emission := pipeline.runEmission merge.report signals.emission
  let result := RunResult.ofReports pipeline.config.options pipeline.published
    extraction.report merge.report emission.report
  ({ config := pipeline.config
     extraction := extraction.stage
     merge := merge.stage
     emission := emission.stage
     published :=
       if result.cancelled then pipeline.published else .ofArtifacts result.artifacts },
   result)

/-- Runs the pipeline on a batch, beginning with the flag up or down. From
then on the host leaves the run alone, and only the objects of the batch can
call it off. -/
def run (pipeline : Pipeline) (batch : Batch) (flag : Bool) : Pipeline × RunResult :=
  pipeline.runUnder batch flag .none

/-- Runs the pipeline on a batch to the end, whatever the host wants. -/
def runToEnd (pipeline : Pipeline) (batch : Batch) : Pipeline × RunResult :=
  pipeline.run batch.undisturbed false

variable {pipeline : Pipeline} {batch : Batch} {flag : Bool} {signals : Signals}

/-- Options are fixed for the lifetime of a pipeline. -/
@[simp]
theorem config_runUnder :
    (pipeline.runUnder batch flag signals).1.config = pipeline.config := rfl

/-- A run that is called off reports no changes. -/
theorem changes_of_cancelled (h : (pipeline.runUnder batch flag signals).2.cancelled = true) :
    (pipeline.runUnder batch flag signals).2.changes = .none :=
  if_pos h

/-- A run that is called off leaves the published artifacts as they were. -/
theorem published_of_cancelled (h : (pipeline.runUnder batch flag signals).2.cancelled = true) :
    (pipeline.runUnder batch flag signals).1.published = pipeline.published :=
  if_pos h

/-- A run to the end reports all that differs. -/
theorem changes_of_complete (h : (pipeline.runUnder batch flag signals).2.cancelled = false) :
    (pipeline.runUnder batch flag signals).2.changes =
      .between pipeline.published (pipeline.runUnder batch flag signals).2.artifacts :=
  if_neg (Bool.eq_false_iff.1 h)

/-- And it publishes its artifacts. -/
theorem published_of_complete (h : (pipeline.runUnder batch flag signals).2.cancelled = false) :
    (pipeline.runUnder batch flag signals).1.published =
      .ofArtifacts (pipeline.runUnder batch flag signals).2.artifacts :=
  if_neg (Bool.eq_false_iff.1 h)

end Pipeline

end BuilderForge
