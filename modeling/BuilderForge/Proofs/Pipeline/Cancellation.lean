import BuilderForge.Proofs.Pipeline.Memory

/-!
# Runs that are called off

A run that is called off before its declarations are read, or while they are,
hands out what it has finished and leaves no trace downstream. It may have
answered from both memos, but all it writes back is
what they hold already, and the extraction, which does remember the run,
gives later runs the same specifications as ever. So two pipelines that
agree from the merge on (`AgreeDownstream`) answer alike for good
(`AgreeDownstream.results`), and a pipeline agrees in this way with what a
called-off run makes of it.
-/

namespace BuilderForge

/-- Two results are the same but for their extraction reports. -/
structure RunResult.SameDownstream (result other : RunResult) : Prop where
  artifacts : result.artifacts = other.artifacts
  diagnostics : result.diagnostics = other.diagnostics
  changes : result.changes = other.changes
  merge : result.merge = other.merge
  emission : result.emission = other.emission
  cancelled : result.cancelled = other.cancelled

namespace Pipeline

/-- Two pipelines are the same but for what their extractions remember. -/
structure AgreeDownstream (pipeline other : Pipeline) : Prop where
  config : pipeline.config = other.config
  merge : pipeline.merge = other.merge
  emission : pipeline.emission = other.emission
  published : pipeline.published = other.published

variable {pipeline other : Pipeline} {batch : Batch} {flag : Bool}

namespace AgreeDownstream

/-- The merges of agreeing pipelines run alike: both extract the same. -/
theorem runMerge (h : pipeline.AgreeDownstream other) (batch : Batch) (flag : Bool) :
    pipeline.runMerge (pipeline.run batch flag).2.extraction .never =
      other.runMerge (other.run batch flag).2.extraction .never := by
  have hcomplete : (pipeline.run batch flag).2.extraction.complete =
      (other.run batch flag).2.extraction.complete := by
    rw [← Bool.not_inj_iff, ← cancelled_run, ← cancelled_run, cancelled_eq_any, cancelled_eq_any]
  -- the reports of the extractions differ in their reasons, which the merge does not read
  unfold Pipeline.runMerge
  rw [h.merge, hcomplete, StageReport.map_value_live, StageReport.map_value_live,
    livePairs_extraction_congr pipeline batch flag other]

/-- And so do their emissions. -/
theorem runEmission (h : pipeline.AgreeDownstream other) (batch : Batch) (flag : Bool) :
    pipeline.runEmission (pipeline.run batch flag).2.merge .never =
      other.runEmission (other.run batch flag).2.merge .never := by
  rw [merge_run, merge_run, h.runMerge]
  unfold Pipeline.runEmission
  rw [h.emission, h.config]

/-- **One run of agreeing pipelines gives the same results.** -/
theorem result (h : pipeline.AgreeDownstream other) (batch : Batch) (flag : Bool) :
    (pipeline.run batch flag).2.SameDownstream (other.run batch flag).2 := by
  have hmerge : (pipeline.run batch flag).2.merge = (other.run batch flag).2.merge := by
    rw [merge_run, merge_run, h.runMerge]
  have hemission : (pipeline.run batch flag).2.emission = (other.run batch flag).2.emission := by
    rw [emission_run, emission_run, h.runEmission]
  have hcancelled : (pipeline.run batch flag).2.cancelled = (other.run batch flag).2.cancelled := by
    rw [cancelled_eq_any, cancelled_eq_any]
  have hartifacts : (pipeline.run batch flag).2.artifacts = (other.run batch flag).2.artifacts := by
    rw [artifacts_run, artifacts_run, h.config, hmerge, hemission]
  exact
    { artifacts := hartifacts
      diagnostics := by rw [diagnostics_run, diagnostics_run, hmerge, hemission]
      changes := by rw [changes_run, changes_run, hcancelled, h.published, hartifacts]
      merge := hmerge
      emission := hemission
      cancelled := hcancelled }

/-- **And they agree after it.** -/
theorem run (h : pipeline.AgreeDownstream other) (batch : Batch) (flag : Bool) :
    (pipeline.run batch flag).1.AgreeDownstream (other.run batch flag).1 where
  config := h.config
  merge := congrArg StageRun.stage (h.runMerge batch flag)
  emission := congrArg StageRun.stage (h.runEmission batch flag)
  published := by
    rw [published_run, published_run, (h.result batch flag).cancelled,
      (h.result batch flag).artifacts, h.published]

/-- **Agreeing pipelines answer alike for good.** -/
theorem results (h : pipeline.AgreeDownstream other) (later : List Request) :
    List.Forall₂ RunResult.SameDownstream (pipeline.results later) (other.results later) := by
  induction later generalizing pipeline other with
  | nil => exact .nil
  | cons request rest ih =>
    exact .cons (h.result request.batch request.flag) (ih (h.run request.batch request.flag))

end AgreeDownstream

/-- **A run that is called off is invisible downstream.** After every
history, a run that is called off leaves the merge, the emission and the
published artifacts as they were and reports no changes, and every later run
gives the results that it would have given without it. -/
theorem cancelled_invisible (config : GeneratorConfig) (history : List Request)
    (request : Request)
    (hcancelled : (((Pipeline.new config).after history).serve request).2.cancelled = true) :
    (((Pipeline.new config).after history).serve request).1.AgreeDownstream
        ((Pipeline.new config).after history) ∧
      (((Pipeline.new config).after history).serve request).2.changes = .none ∧
      ∀ later, List.Forall₂ RunResult.SameDownstream
        ((((Pipeline.new config).after history).serve request).1.results later)
        (((Pipeline.new config).after history).results later) := by
  obtain ⟨hmerge, hemission, hpublished⟩ :=
    (remembers_after config history).run_of_cancelled hcancelled
  have hagree : (((Pipeline.new config).after history).serve request).1.AgreeDownstream
      ((Pipeline.new config).after history) := ⟨rfl, hmerge, hemission, hpublished⟩
  exact ⟨hagree, changes_of_cancelled hcancelled, hagree.results⟩

/-- A batch of which a part was built before is called off, and then is run
to the end. -/
theorem cancelled_invisible_of_renamed :
    (((Pipeline.new .standard).after [⟨.single "x" false, false⟩]).serve
        ⟨.single "y" true, false⟩).2.cancelled = true ∧
      List.Forall₂ RunResult.SameDownstream
        ((((Pipeline.new .standard).after [⟨.single "x" false, false⟩]).serve
          ⟨.single "y" true, false⟩).1.results [⟨.single "y" false, false⟩])
        (((Pipeline.new .standard).after [⟨.single "x" false, false⟩]).results
          [⟨.single "y" false, false⟩]) := by
  have hcancelled := cancelled_single ((Pipeline.new .standard).after
    [⟨.single "x" false, false⟩]) false "y" true
  exact ⟨hcancelled, (cancelled_invisible _ _ ⟨_, _⟩ hcancelled).2.2 _⟩

end Pipeline

end BuilderForge
