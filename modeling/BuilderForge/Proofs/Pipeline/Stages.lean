import BuilderForge.Pipeline.Run
import BuilderForge.Proofs.Pipeline.Jobs
import BuilderForge.Proofs.Stage.Accounting
import BuilderForge.Proofs.Stage.Signals
import BuilderForge.Proofs.Stage.Tracking

/-!
# The stages of a run

A run is called off if one of its stages is, and a stage comes to its end if
the one before it did and no signal of the host comes in time
(`complete_runMerge`, `complete_runEmission`). The extraction looks at the
batch and the flag and at nothing that the pipeline remembers
(`livePairs_extraction_congr`). So when the host leaves a run alone, the batch
and the flag decide whether it is called off (`cancelled_eq_any`), and the
later stages see one of two flags: it is up from the start of them, or it
stays down.
-/

namespace BuilderForge

/-- The batch of one builder, for a type with one member. Reading the type
may be the moment when the run is called off. -/
def Batch.single (member : String) (cancels : Bool) : Batch where
  catalog := [⟨"app::Point", [⟨member, "f32", some .anywhere, .anywhere, false⟩], none, cancels⟩]
  declarations := [⟨⟨1⟩, "app", "PointBuilder", .type 0, false⟩]

namespace Pipeline

variable (pipeline : Pipeline) (batch : Batch) (flag : Bool)

/-! ## A run that the host leaves alone, part by part -/

/-- The extraction of a run. -/
theorem extraction_run : (pipeline.run batch flag).2.extraction =
    (pipeline.runExtraction batch flag).report := rfl

/-- The merge of a run is that of what the run extracted. -/
theorem merge_run : (pipeline.run batch flag).2.merge =
    (pipeline.runMerge (pipeline.run batch flag).2.extraction .never).report := rfl

/-- The emission of a run is that of what the run merged. -/
theorem emission_run : (pipeline.run batch flag).2.emission =
    (pipeline.runEmission (pipeline.run batch flag).2.merge .never).report := rfl

/-- The artifacts of a run are those of its emitted builders. -/
theorem artifacts_run : (pipeline.run batch flag).2.artifacts =
    artifactsOf pipeline.config.options
      (.ofKeys ((pipeline.run batch flag).2.merge.live.map StageOutput.key))
      (pipeline.run batch flag).2.emission.live := rfl

/-- Its diagnostics are those of the merged and the emitted builders. -/
theorem diagnostics_run : (pipeline.run batch flag).2.diagnostics =
    findings (pipeline.run batch flag).2.merge.live
      (.ofKeys ((pipeline.run batch flag).2.merge.live.map StageOutput.key))
      (pipeline.run batch flag).2.emission.live := rfl

/-- Its changes are what it publishes. -/
theorem changes_run : (pipeline.run batch flag).2.changes =
    if (pipeline.run batch flag).2.cancelled then .none
    else .between pipeline.published (pipeline.run batch flag).2.artifacts := rfl

/-- What it leaves published. -/
theorem published_run : (pipeline.run batch flag).1.published =
    if (pipeline.run batch flag).2.cancelled then pipeline.published
    else .ofArtifacts (pipeline.run batch flag).2.artifacts := rfl

/-! ## Runs that are called off -/

/-- The builders that have to be merged anew. -/
def keysToMerge (extraction : StageReport DeclarationId BuilderSpec) : List BuilderKey :=
  (pending (pipeline.merge.memo[·]?)
    (mergeJobs (extraction.live.map StageOutput.value))).map Job.key

/-- The builders that have to be written anew. -/
def keysToEmit (merge : StageReport BuilderKey MergedBuilder) : List BuilderKey :=
  (pending (pipeline.emission.memo[·]?) (emissionJobs merge.live)).map Job.key

/-- **When the merge comes to its end**: if the extraction did, and no signal
comes before it or over a builder that has to be merged anew. -/
theorem complete_runMerge (extraction : StageReport DeclarationId BuilderSpec)
    (signal : Signal BuilderKey) : (pipeline.runMerge extraction signal).report.complete =
      (extraction.complete && !signal.reaches (pipeline.keysToMerge extraction)) := by
  rw [runMerge, MemoStage.complete_run_under signal fun _ => quiet_mergeJobs, Bool.not_not]
  rfl

/-- **And when the emission does**: if the merge did, and no signal comes
before it or over a builder that has to be written anew. -/
theorem complete_runEmission (merge : StageReport BuilderKey MergedBuilder)
    (signal : Signal BuilderKey) : (pipeline.runEmission merge signal).report.complete =
      (merge.complete && !signal.reaches (pipeline.keysToEmit merge)) := by
  rw [runEmission, MemoStage.complete_run_under signal fun _ => quiet_emissionJobs, Bool.not_not]
  rfl

/-- **When the extraction comes to its end**: if the flag is down and no
declaration calls the run off while it is read. -/
theorem complete_runExtraction : (pipeline.runExtraction batch flag).report.complete =
    !(flag || batch.extractionJobs.any Job.cancels) := by
  rw [runExtraction, TrackedStage.complete_run, flagAfter_sweep]
  rfl

/-- A run is called off if one of its stages is. -/
theorem cancelled_eq (signals : Signals) : (pipeline.runUnder batch flag signals).2.cancelled =
    !((pipeline.runUnder batch flag signals).2.extraction.complete &&
      (pipeline.runUnder batch flag signals).2.merge.complete &&
      (pipeline.runUnder batch flag signals).2.emission.complete) := rfl

/-- **When a run is called off**: before it or over a declaration, or at a
signal that comes before a stage or over a builder that the stage has to work
on. -/
theorem cancelled_runUnder (signals : Signals) :
    (pipeline.runUnder batch flag signals).2.cancelled =
      (flag || batch.extractionJobs.any Job.cancels ||
        signals.merge.reaches
          (pipeline.keysToMerge (pipeline.runUnder batch flag signals).2.extraction) ||
        signals.emission.reaches
          (pipeline.keysToEmit (pipeline.runUnder batch flag signals).2.merge)) := by
  have hextraction : (pipeline.runUnder batch flag signals).2.extraction.complete =
      !(flag || batch.extractionJobs.any Job.cancels) := complete_runExtraction _ _ _
  have hmerge : (pipeline.runUnder batch flag signals).2.merge.complete = _ :=
    complete_runMerge pipeline (pipeline.runUnder batch flag signals).2.extraction signals.merge
  have hemission : (pipeline.runUnder batch flag signals).2.emission.complete = _ :=
    complete_runEmission pipeline (pipeline.runUnder batch flag signals).2.merge signals.emission
  rw [cancelled_eq, hemission, hmerge, hextraction]
  cases flag || batch.extractionJobs.any Job.cancels
  · simp
  · simp

/-- **A run that the host leaves alone is called off exactly if its
extraction is**: beforehand, or while one of its declarations is read. -/
theorem cancelled_eq_any : (pipeline.run batch flag).2.cancelled =
    (flag || batch.extractionJobs.any Job.cancels) := by
  rw [run, cancelled_runUnder]
  exact (Bool.or_false _).trans (Bool.or_false _)

/-- **A run is called off exactly if its extraction is.** -/
theorem cancelled_run : (pipeline.run batch flag).2.cancelled =
    !(pipeline.run batch flag).2.extraction.complete := by
  rw [cancelled_eq_any, extraction_run, complete_runExtraction, Bool.not_not]

/-- In particular while the one type of a batch is read. -/
theorem cancelled_single (member : String) (cancels : Bool) :
    (pipeline.run (.single member cancels) flag).2.cancelled = (flag || cancels) := by
  rw [cancelled_eq_any]
  cases flag <;> cases cancels <;> cbv

variable {pipeline batch flag}

/-- All stages of a run to the end are complete. -/
theorem complete_of_not_cancelled {signals : Signals}
    (h : (pipeline.runUnder batch flag signals).2.cancelled = false) :
    (pipeline.runUnder batch flag signals).2.extraction.complete = true ∧
      (pipeline.runUnder batch flag signals).2.merge.complete = true ∧
      (pipeline.runUnder batch flag signals).2.emission.complete = true := by
  rw [cancelled_eq, Bool.not_eq_false', Bool.and_eq_true, Bool.and_eq_true, and_assoc] at h
  exact h

/-- Where the host leaves a run alone, it is called off ahead of the merge. -/
theorem incomplete_of_cancelled (h : (pipeline.run batch flag).2.cancelled = true) :
    (pipeline.run batch flag).2.extraction.complete = false ∧
      (pipeline.run batch flag).2.merge.complete = false := by
  have hextraction : (pipeline.run batch flag).2.extraction.complete = false := by
    rw [cancelled_run] at h
    simpa using h
  refine ⟨hextraction, ?_⟩
  rw [merge_run, complete_runMerge, hextraction, Bool.false_and]

/-! ## What the stages hand on -/

variable (pipeline batch flag)

/-- **What is extracted is a matter of the batch**: two pipelines extract
the same, whatever they remember. -/
theorem livePairs_extraction_congr (other : Pipeline) :
    (pipeline.run batch flag).2.extraction.livePairs =
      (other.run batch flag).2.extraction.livePairs := by
  rw [extraction_run, extraction_run, runExtraction, runExtraction, TrackedStage.livePairs_run,
    TrackedStage.livePairs_run]

/-- The merged builders of a run ascend strictly, whatever calls it off. -/
theorem ascendsBy_runMerge (extraction : StageReport DeclarationId BuilderSpec)
    (signal : Signal BuilderKey) :
    AscendsBy StageOutput.key (pipeline.runMerge extraction signal).report.live :=
  MemoStage.ascendsBy_live_run (signal.ascendsBy_mark (ascendsBy_mergeJobs _))

/-- And so do the emitted ones. -/
theorem ascendsBy_runEmission {merge : StageReport BuilderKey MergedBuilder}
    (h : AscendsBy StageOutput.key merge.live) (signal : Signal BuilderKey) :
    AscendsBy StageOutput.key (pipeline.runEmission merge signal).report.live :=
  MemoStage.ascendsBy_live_run (signal.ascendsBy_mark (ascendsBy_emissionJobs h))

/-- In particular the merged builders of a run that the host leaves alone. -/
theorem ascendsBy_merge :
    AscendsBy StageOutput.key (pipeline.run batch flag).2.merge.live :=
  ascendsBy_runMerge _ _ _

/-- And the emitted ones. -/
theorem ascendsBy_emission :
    AscendsBy StageOutput.key (pipeline.run batch flag).2.emission.live :=
  ascendsBy_runEmission _ (ascendsBy_merge pipeline batch flag) _

end Pipeline

end BuilderForge
