import BuilderForge.Proofs.Pipeline.History
import BuilderForge.Proofs.Pipeline.Stages

/-!
# What a pipeline remembers

After any history, a pipeline remembers the last run that was not called
off, and nothing else that could show in a later answer. The merge holds
for each builder the fragments and the merged builder of that run, the
emission holds the specification and the outcome, and the artifacts of that
run are the published ones. `Pipeline.Remembers` says so; a run to the end
makes it true of itself (`Remembers.run_of_complete`), a run that is called
off leaves it as it is (`Remembers.run_of_cancelled`), and so it holds after
every history (`remembers_after`).
-/

namespace BuilderForge

open Std

/-! ## What a run says about a builder -/

namespace RunResult

/-- The fragments of a builder in a run, ascending. -/
def fragments (run : RunResult) (key : BuilderKey) : List BuilderSpec :=
  fragmentsOf (run.extraction.live.map StageOutput.value) key

/-- The fragments of a builder and what they were merged into, if the run
merged it. -/
def merged? (run : RunResult) (key : BuilderKey) : Option (List BuilderSpec × MergedBuilder) :=
  (run.merge.value? key).map fun merged => (run.fragments key, merged)

/-- The merged specification of a builder and what emitting it came to, if
the run emitted it. -/
def emitted? (run : RunResult) (key : BuilderKey) : Option (BuilderSpec × EmitOutcome) :=
  (run.merge.value? key).bind fun merged =>
    (run.emission.value? key).map fun outcome => (merged.spec, outcome)

end RunResult

/-! ## The description of a pipeline -/

namespace Pipeline

/-- The artifacts that the last run to the end left published. -/
def publishedBy : Option RunResult → Published
  | none => ∅
  | some run => .ofArtifacts run.artifacts

/-- **What a pipeline remembers** of the last run that was not called off,
none if there was no such run. -/
structure Remembers (pipeline : Pipeline) (last : Option RunResult) : Prop where
  merge : pipeline.merge.Remembers (fun fragments => (mergeFragments fragments).spec.key)
    mergeFragments fun key => last.bind (·.merged? key)
  emission : pipeline.emission.Remembers BuilderSpec.key (.ofSpec pipeline.config.options)
    fun key => last.bind (·.emitted? key)
  published : pipeline.published = publishedBy last

/-- A new pipeline remembers no run. -/
theorem remembers_new (config : GeneratorConfig) : (Pipeline.new config).Remembers none where
  merge := MemoStage.remembers_empty _ _ _
  emission := MemoStage.remembers_empty _ _ _
  published := rfl

variable {pipeline : Pipeline} {last : Option RunResult} {batch : Batch} {flag : Bool}

namespace Remembers

/-- **A merged builder keeps its key**, also in a run that is called off. -/
theorem key_of_mem_merge (h : pipeline.Remembers last)
    {output : StageOutput BuilderKey MergedBuilder}
    (houtput : output ∈ (pipeline.run batch flag).2.merge.live) :
    output.value.spec.key = output.key := by
  obtain ⟨job, hjob, hkey, hvalue⟩ := h.merge.job_of_mem_live houtput
  rw [hvalue, keyed_mergeJobs hjob, hkey]

/-- So the jobs of the emission tell their builders. -/
theorem keyed_emission (h : pipeline.Remembers last) {job : Job BuilderKey BuilderSpec}
    (hjob : job ∈ emissionJobs (pipeline.run batch flag).2.merge.live) : job.input.key = job.key :=
  keyed_emissionJobs (fun _ => h.key_of_mem_merge) hjob

/-! ## A run to the end -/

/-- A run to the end merges every builder that has fragments. -/
theorem livePairs_merge (h : pipeline.Remembers last)
    (hcomplete : (pipeline.run batch flag).2.cancelled = false) :
    (pipeline.run batch flag).2.merge.livePairs =
      (mergeJobs ((pipeline.run batch flag).2.extraction.live.map StageOutput.value)).map
        fun job => (job.key, mergeFragments job.input) :=
  h.merge.livePairs_of_complete (complete_of_not_cancelled hcomplete).2.1 (ascendsBy_mergeJobs _)

/-- And emits every merged builder. -/
theorem livePairs_emission (h : pipeline.Remembers last)
    (hcomplete : (pipeline.run batch flag).2.cancelled = false) :
    (pipeline.run batch flag).2.emission.livePairs =
      (emissionJobs (pipeline.run batch flag).2.merge.live).map
        fun job => (job.key, .ofSpec pipeline.config.options job.input) :=
  h.emission.livePairs_of_complete (complete_of_not_cancelled hcomplete).2.2
    (ascendsBy_emissionJobs (ascendsBy_merge pipeline batch flag))

/-- What a run to the end says about merged builders describes its jobs. -/
theorem describes_merged (h : pipeline.Remembers last)
    (hcomplete : (pipeline.run batch flag).2.cancelled = false) :
    MemoStage.Describes mergeFragments
      (mergeJobs ((pipeline.run batch flag).2.extraction.live.map StageOutput.value))
      (pipeline.run batch flag).2.merged? := by
  intro key input value
  simp only [RunResult.merged?, Option.map_eq_some_iff, Prod.mk.injEq,
    StageReport.value?_eq_some_iff (ascendsBy_merge pipeline batch flag).nodup_keys,
    h.livePairs_merge hcomplete, List.mem_map]
  constructor
  · rintro ⟨_, ⟨job, hjob, rfl, rfl⟩, rfl, rfl⟩
    have hinput := input_of_mem_mergeJobs hjob
    exact ⟨job, hjob, rfl, hinput, congrArg mergeFragments hinput⟩
  · rintro ⟨job, hjob, rfl, rfl, rfl⟩
    exact ⟨_, ⟨job, hjob, rfl, rfl⟩, (input_of_mem_mergeJobs hjob).symm, rfl⟩

/-- And what it says about emitted builders. -/
theorem describes_emitted (h : pipeline.Remembers last)
    (hcomplete : (pipeline.run batch flag).2.cancelled = false) :
    MemoStage.Describes (.ofSpec pipeline.config.options)
      (emissionJobs (pipeline.run batch flag).2.merge.live)
      (pipeline.run batch flag).2.emitted? := by
  intro key input value
  have hmerge := (ascendsBy_merge pipeline batch flag).nodup_keys
  have hemission : ∀ k v, (k, v) ∈ (pipeline.run batch flag).2.emission.livePairs ↔
      ∃ output ∈ (pipeline.run batch flag).2.merge.live,
        output.key = k ∧ .ofSpec pipeline.config.options output.value.spec = v := by
    simp [h.livePairs_emission hcomplete, emissionJobs]
  simp only [RunResult.emitted?, Option.bind_eq_some_iff, Option.map_eq_some_iff, Prod.mk.injEq,
    StageReport.value?_eq_some_iff hmerge,
    StageReport.value?_eq_some_iff (ascendsBy_emission pipeline batch flag).nodup_keys, hemission]
  constructor
  · rintro ⟨merged, hmerged, _, ⟨found, hfound, rfl, rfl⟩, rfl, rfl⟩
    -- the emitted builder and the merged one have one key, so they are one
    obtain ⟨output, houtput, hpair⟩ := List.mem_map.1 hmerged
    obtain ⟨hkey, rfl⟩ := Prod.mk.inj hpair
    obtain rfl := List.inj_on_of_nodup_map hmerge hfound houtput hkey.symm
    exact ⟨_, List.mem_map_of_mem houtput, rfl, rfl, rfl⟩
  · rintro ⟨job, hjob, rfl, rfl, rfl⟩
    obtain ⟨output, houtput, rfl⟩ := List.mem_map.1 hjob
    exact ⟨output.value, List.mem_map_of_mem (f := fun o => (o.key, o.value)) houtput, _,
      ⟨output, houtput, rfl, rfl⟩, rfl, rfl⟩

/-- **A run to the end is what is remembered from then on.** -/
theorem run_of_complete (h : pipeline.Remembers last)
    (hcomplete : (pipeline.run batch flag).2.cancelled = false) :
    (pipeline.run batch flag).1.Remembers (some (pipeline.run batch flag).2) where
  merge := h.merge.run_of_complete (complete_of_not_cancelled hcomplete).2.1
    (ascendsBy_mergeJobs _) (fun _ => keyed_mergeJobs) (h.describes_merged hcomplete)
  emission := h.emission.run_of_complete (complete_of_not_cancelled hcomplete).2.2
    (ascendsBy_emissionJobs (ascendsBy_merge pipeline batch flag)) (fun _ => h.keyed_emission)
    (h.describes_emitted hcomplete)
  published := published_of_complete hcomplete

/-! ## A run that is called off -/

/-- **A run that is called off changes nothing that shows later**: the merge,
the emission and the published artifacts are as they were. -/
theorem run_of_cancelled (h : pipeline.Remembers last)
    (hcancelled : (pipeline.run batch flag).2.cancelled = true) :
    (pipeline.run batch flag).1.merge = pipeline.merge ∧
      (pipeline.run batch flag).1.emission = pipeline.emission ∧
      (pipeline.run batch flag).1.published = pipeline.published := by
  obtain ⟨hextraction, hmerge⟩ := incomplete_of_cancelled hcancelled
  refine ⟨?_, ?_, published_of_cancelled hcancelled⟩
  · change (pipeline.merge.run _ _ (!(pipeline.run batch flag).2.extraction.complete)).stage = _
    rw [hextraction]
    exact h.merge.run_of_flag (ascendsBy_mergeJobs _) fun _ => keyed_mergeJobs
  · change (pipeline.emission.run _ _ (!(pipeline.run batch flag).2.merge.complete)).stage = _
    rw [hmerge]
    exact h.emission.run_of_flag
      (ascendsBy_emissionJobs (ascendsBy_merge pipeline batch flag)) fun _ => h.keyed_emission

end Remembers

/-- **After every history, a pipeline remembers the last run that was not
called off.** -/
theorem remembers_after (config : GeneratorConfig) (history : List Request) :
    ((Pipeline.new config).after history).Remembers
      (lastComplete ((Pipeline.new config).results history)) := by
  induction history using List.reverseRecOn with
  | nil => exact remembers_new config
  | append_singleton rest request ih =>
    rw [after_concat, results_concat]
    -- the description moves on with runs to the end only
    cases hcancelled : (((Pipeline.new config).after rest).serve request).2.cancelled with
    | false =>
      rw [lastComplete_concat_of_complete _ hcancelled]
      exact ih.run_of_complete hcancelled
    | true =>
      rw [lastComplete_concat_of_cancelled _ hcancelled]
      obtain ⟨hmerge, hemission, hpublished⟩ := ih.run_of_cancelled hcancelled
      exact ⟨hmerge ▸ ih.merge, hemission ▸ ih.emission, hpublished.trans ih.published⟩

end Pipeline

end BuilderForge
