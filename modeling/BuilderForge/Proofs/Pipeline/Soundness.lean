import BuilderForge.Proofs.Pipeline.History
import BuilderForge.Proofs.Pipeline.Stages
import BuilderForge.Proofs.Provider.Undisturbed
import BuilderForge.Proofs.Stage.Soundness

/-!
# Memos that are never wrong

A memo that holds nothing but right answers (`Pipeline.Sound`) saves work and
does nothing else. Every run keeps it so, whatever calls the run off and
whenever (`Sound.runUnder`): what a run computes is right as far as it comes.
So runs to the end answer the same, whatever their pipelines went through
before (`Sound.sameAnswer`), and a run that is called off merges and emits a
part of what it would have (`Sound.merge_sublist`, `Sound.emission_sublist`).
-/

namespace BuilderForge

/-- **Two results answer the same**: the artifacts, the diagnostics and what
the stages produced. The reasons and the changes, which speak of earlier
runs, may differ. -/
structure RunResult.SameAnswer (result other : RunResult) : Prop where
  artifacts : result.artifacts = other.artifacts
  diagnostics : result.diagnostics = other.diagnostics
  extraction : result.extraction.livePairs = other.extraction.livePairs
  merge : result.merge.livePairs = other.merge.livePairs
  emission : result.emission.livePairs = other.emission.livePairs

/-- The jobs of the emission do not depend on the reasons of the merge. -/
theorem emissionJobs_congr {merge other : StageReport BuilderKey MergedBuilder}
    (h : merge.livePairs = other.livePairs) :
    emissionJobs merge.live = emissionJobs other.live := by
  have hjobs : ∀ report : StageReport BuilderKey MergedBuilder, emissionJobs report.live =
      report.livePairs.map fun pair => ⟨pair.1, pair.2.spec, false⟩ := by
    intro report
    rw [StageReport.livePairs, List.map_map]
    rfl
  rw [hjobs, hjobs, h]

/-- Nor do the artifacts depend on the reasons of the emission. -/
theorem artifactsOf_congr {emission other : StageReport BuilderKey EmitOutcome}
    (options : EmitOptions) (resolution : Resolution) (h : emission.livePairs = other.livePairs) :
    artifactsOf options resolution emission.live = artifactsOf options resolution other.live := by
  unfold artifactsOf
  rw [StageReport.filterMap_live_congr h fun _ _ => rfl]

/-- And the findings look at no reason at all. -/
theorem findings_congr {merge otherMerge : StageReport BuilderKey MergedBuilder}
    {emission otherEmission : StageReport BuilderKey EmitOutcome} (resolution : Resolution)
    (hmerge : merge.livePairs = otherMerge.livePairs)
    (hemission : emission.livePairs = otherEmission.livePairs) :
    findings merge.live resolution emission.live =
      findings otherMerge.live resolution otherEmission.live := by
  unfold findings
  rw [StageReport.filterMap_live_congr hmerge fun _ _ => rfl,
    StageReport.filterMap_live_congr hemission fun _ _ => rfl]

/-- What a run comes to is a matter of what its stages produced. -/
theorem RunResult.sameAnswer_ofReports {options otherOptions : EmitOptions}
    {published otherPublished : Published}
    {extraction otherExtraction : StageReport DeclarationId BuilderSpec}
    {merge otherMerge : StageReport BuilderKey MergedBuilder}
    {emission otherEmission : StageReport BuilderKey EmitOutcome}
    (hoptions : options = otherOptions)
    (hextraction : extraction.livePairs = otherExtraction.livePairs)
    (hmerge : merge.livePairs = otherMerge.livePairs)
    (hemission : emission.livePairs = otherEmission.livePairs) :
    (ofReports options published extraction merge emission).SameAnswer
      (ofReports otherOptions otherPublished otherExtraction otherMerge otherEmission) where
  artifacts := by
    simp only [ofReports]
    rw [hoptions, StageReport.map_key_live, StageReport.map_key_live, hmerge,
      artifactsOf_congr _ _ hemission]
  diagnostics := by
    simp only [ofReports]
    rw [StageReport.map_key_live, StageReport.map_key_live, hmerge,
      findings_congr _ hmerge hemission]
  extraction := hextraction
  merge := hmerge
  emission := hemission

namespace Pipeline

/-- **The memos of the pipeline are right**: they hold nothing but what would
be computed. -/
structure Sound (pipeline : Pipeline) : Prop where
  merge : pipeline.merge.SoundFor mergeFragments
  emission : pipeline.emission.SoundFor (.ofSpec pipeline.config.options)

/-- A new pipeline has nothing that could be wrong. -/
theorem sound_new (config : GeneratorConfig) : (Pipeline.new config).Sound where
  merge := MemoStage.soundFor_empty _ _
  emission := MemoStage.soundFor_empty _ _

/-- What the specifications of each builder are merged into. -/
def mergedPairs (specs : List BuilderSpec) : List (BuilderKey × MergedBuilder) :=
  (mergeJobs specs).map fun job => (job.key, mergeFragments job.input)

/-- What emitting each merged builder comes to. -/
def emittedPairs (options : EmitOptions) (merged : List (BuilderKey × MergedBuilder)) :
    List (BuilderKey × EmitOutcome) :=
  merged.map fun pair => (pair.1, .ofSpec options pair.2.spec)

variable {pipeline other : Pipeline} {batch otherBatch : Batch} {flag otherFlag : Bool}
variable {signals otherSignals : Signals} {signal : Signal BuilderKey}
variable {extraction : StageReport DeclarationId BuilderSpec}
variable {merge : StageReport BuilderKey MergedBuilder}

/-- A signal does not touch what the jobs of the merge come to. -/
theorem map_mark_mergeJobs (signal : Signal BuilderKey) :
    (signal.mark (mergeJobs (extraction.live.map StageOutput.value))).map
        (fun job => (job.key, mergeFragments job.input)) =
      mergedPairs (extraction.livePairs.map Prod.snd) := by
  rw [signal.map_mark fun _ _ => rfl, StageReport.map_value_live]
  rfl

/-- Nor what those of the emission come to. -/
theorem map_mark_emissionJobs (signal : Signal BuilderKey) (options : EmitOptions) :
    (signal.mark (emissionJobs merge.live)).map
        (fun job => (job.key, EmitOutcome.ofSpec options job.input)) =
      emittedPairs options merge.livePairs := by
  rw [signal.map_mark fun _ _ => rfl, emissionJobs, emittedPairs, StageReport.livePairs,
    List.map_map, List.map_map]
  rfl

/-- **An extraction that comes to its end gives what is in the batch.** -/
theorem livePairs_runExtraction (h : (pipeline.runExtraction batch flag).report.complete = true) :
    (pipeline.runExtraction batch flag).report.livePairs =
      ascendingBy Prod.fst batch.extracted := by
  rw [runExtraction, TrackedStage.livePairs_of_complete h, Batch.extractionJobs,
    List.filterMap_map]
  rfl

/-- So runs that read all their declarations extract the same if the batches
give the same specifications. -/
theorem livePairs_extraction_eq (hbatch : batch.extracted = otherBatch.extracted)
    (h : (pipeline.runUnder batch flag signals).2.extraction.complete = true)
    (hother : (other.runUnder otherBatch otherFlag otherSignals).2.extraction.complete = true) :
    (pipeline.runUnder batch flag signals).2.extraction.livePairs =
      (other.runUnder otherBatch otherFlag otherSignals).2.extraction.livePairs := by
  refine (livePairs_runExtraction h).trans ?_
  rw [hbatch]
  exact (livePairs_runExtraction hother).symm

namespace Sound

/-- **What is merged before a run is called off is merged right.** -/
theorem merge_sublist (h : pipeline.Sound) :
    (pipeline.runMerge extraction signal).report.livePairs.Sublist
      (mergedPairs (extraction.livePairs.map Prod.snd)) := by
  rw [← map_mark_mergeJobs signal]
  exact h.merge.livePairs_sublist (signal.ascendsBy_mark (ascendsBy_mergeJobs _))

/-- A merge that comes to its end merges every builder. -/
theorem merge_of_complete (h : pipeline.Sound)
    (hcomplete : (pipeline.runMerge extraction signal).report.complete = true) :
    (pipeline.runMerge extraction signal).report.livePairs =
      mergedPairs (extraction.livePairs.map Prod.snd) := by
  rw [← map_mark_mergeJobs signal]
  exact h.merge.livePairs_of_complete (signal.ascendsBy_mark (ascendsBy_mergeJobs _)) hcomplete

/-- **And what is emitted is emitted right.** -/
theorem emission_sublist (h : pipeline.Sound) (hmerge : AscendsBy StageOutput.key merge.live) :
    (pipeline.runEmission merge signal).report.livePairs.Sublist
      (emittedPairs pipeline.config.options merge.livePairs) := by
  rw [← map_mark_emissionJobs signal]
  exact h.emission.livePairs_sublist (signal.ascendsBy_mark (ascendsBy_emissionJobs hmerge))

/-- An emission that comes to its end emits every merged builder. -/
theorem emission_of_complete (h : pipeline.Sound) (hmerge : AscendsBy StageOutput.key merge.live)
    (hcomplete : (pipeline.runEmission merge signal).report.complete = true) :
    (pipeline.runEmission merge signal).report.livePairs =
      emittedPairs pipeline.config.options merge.livePairs := by
  rw [← map_mark_emissionJobs signal]
  exact h.emission.livePairs_of_complete
    (signal.ascendsBy_mark (ascendsBy_emissionJobs hmerge)) hcomplete

/-- **No run makes a memo wrong**, whatever calls it off and whenever. -/
theorem runUnder (h : pipeline.Sound) : (pipeline.runUnder batch flag signals).1.Sound where
  merge := h.merge.run
  emission := h.emission.run

/-- **Runs to the end answer the same** if the batches give the same
specifications, whatever their pipelines went through before. -/
theorem sameAnswer (h : pipeline.Sound) (hother : other.Sound)
    (hconfig : pipeline.config = other.config) (hbatch : batch.extracted = otherBatch.extracted)
    (hcomplete : (pipeline.runUnder batch flag signals).2.cancelled = false)
    (hotherComplete : (other.runUnder otherBatch otherFlag otherSignals).2.cancelled = false) :
    (pipeline.runUnder batch flag signals).2.SameAnswer
      (other.runUnder otherBatch otherFlag otherSignals).2 := by
  obtain ⟨hfirst, hsecond, hthird⟩ := complete_of_not_cancelled hcomplete
  obtain ⟨hotherFirst, hotherSecond, hotherThird⟩ := complete_of_not_cancelled hotherComplete
  have hextraction := livePairs_extraction_eq hbatch hfirst hotherFirst
  have hmerge : (pipeline.runUnder batch flag signals).2.merge.livePairs =
      (other.runUnder otherBatch otherFlag otherSignals).2.merge.livePairs := by
    refine (h.merge_of_complete hsecond).trans (.trans ?_
      (hother.merge_of_complete hotherSecond).symm)
    exact congrArg (fun pairs => mergedPairs (pairs.map Prod.snd)) hextraction
  have hemission : (pipeline.runUnder batch flag signals).2.emission.livePairs =
      (other.runUnder otherBatch otherFlag otherSignals).2.emission.livePairs := by
    refine (h.emission_of_complete (ascendsBy_runMerge _ _ _) hthird).trans (.trans ?_
      (hother.emission_of_complete (ascendsBy_runMerge _ _ _) hotherThird).symm)
    rw [hconfig]
    exact congrArg (emittedPairs _) hmerge
  exact RunResult.sameAnswer_ofReports (congrArg GeneratorConfig.options hconfig) hextraction
    hmerge hemission

end Sound

/-- **The memos of a pipeline are right**, however a host came by it. -/
theorem Reached.sound {config : GeneratorConfig} {results : List RunResult}
    (h : Reached config pipeline results) : pipeline.Sound := by
  induction h with
  | new => exact sound_new config
  | run _ _ _ _ ih => exact ih.runUnder

end Pipeline

end BuilderForge
