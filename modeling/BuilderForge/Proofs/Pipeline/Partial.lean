import BuilderForge.Proofs.Pipeline.Census

/-!
# Partial results

A run that is called off has read some of its declarations. Of these it
hands out what it finds in the memos: each artifact is the text of a
builder, merged from the fragments that were read and named among the
builders that were found. A run to the end may have more of both. So an
artifact is one of that run where no fragment of its builder is left and the
builder has its base (`Remembers.partialFor`).

What is found is what the last run to the end was about: a run that has read
just that hands out the artifacts of that run (`Remembers.artifacts_of_read`).
-/

namespace BuilderForge

open Std

namespace Batch

variable {batch : Batch} {flag : Bool} {key : BuilderKey}

/-- The specifications of the declarations that are read until the run is
called off. -/
def read (batch : Batch) (flag : Bool) : List BuilderSpec :=
  (begun flag batch.extractionJobs).filterMap fun job => job.input.extract batch.catalog

/-- What is read is of the batch. -/
theorem read_subset_specs : batch.read flag ⊆ batch.specs := by
  have hspecs : batch.specs =
      batch.extractionJobs.filterMap fun job => job.input.extract batch.catalog := by
    rw [specs_eq, extractionJobs, List.filterMap_map]
    rfl
  rw [hspecs]
  exact ((begun_sublist flag batch.extractionJobs).filterMap _).subset

/-- An undisturbed batch has the same specifications, -/
theorem specs_undisturbed (batch : Batch) : batch.undisturbed.specs = batch.specs := by
  rw [specs, extracted_undisturbed, specs]

/-- so it has the same fragments, -/
theorem fragments_undisturbed (batch : Batch) :
    batch.undisturbed.fragments = batch.fragments := by
  funext key
  rw [fragments, specs_undisturbed, fragments]

/-- the same builders, -/
theorem builders_undisturbed (batch : Batch) : batch.undisturbed.builders = batch.builders := by
  rw [builders, specs_undisturbed, builders]

/-- the same identifiers, -/
theorem naming_undisturbed (batch : Batch) : batch.undisturbed.naming = batch.naming := by
  rw [naming, builders_undisturbed, naming]

/-- and the same artifacts. -/
theorem artifactFor_undisturbed {options : EmitOptions} {artifact : Artifact} :
    batch.undisturbed.ArtifactFor options key artifact ↔
      batch.ArtifactFor options key artifact := by
  simp only [← artifact?_eq_some_iff, artifact?, outcome, merged, fragments_undisturbed,
    naming_undisturbed]

end Batch

/-- **An artifact of a builder in a run that may have been called off**,
compared with a run to the end on the same batch. -/
structure RunResult.PartialFor (run full : RunResult) (options : EmitOptions) (key : BuilderKey)
    (artifact : Artifact) : Prop where
  /-- It is named among the builders that the run found. -/
  id : run.naming.id? key = some artifact.id
  /-- Its text is that of the fragments that the run extracted. -/
  text : emitBuilder (mergeFragments (run.fragments key)).spec options = .ok artifact.text
  /-- There may be more of these. -/
  fragments : run.fragments key ⊆ full.fragments key
  /-- If there are not, the run to the end has the same text for the builder,
  though maybe under another identifier, -/
  finished : run.fragments key = full.fragments key →
    ∃ id, full.naming.id? key = some id ∧ ⟨id, artifact.text⟩ ∈ full.artifacts
  /-- and it has the same artifact if the builder has its base there. -/
  same : run.fragments key = full.fragments key →
    full.naming.id? key = some ⟨Naming.baseIdentifier key.scope key.name⟩ →
      artifact ∈ full.artifacts

namespace Pipeline

variable {pipeline : Pipeline} {last : Option RunResult} {batch : Batch} {flag : Bool}
variable {key : BuilderKey}

/-! ## What a run extracts -/

/-- A run extracts the specifications that it has read. -/
theorem specs_perm_read (pipeline : Pipeline) (batch : Batch) (flag : Bool) :
    ((pipeline.run batch flag).2.extraction.live.map StageOutput.value).Perm (batch.read flag) := by
  have hread : (Finished.kept (TrackedStage.results (sweep (fun _ => none)
      (Declaration.extract batch.catalog) flag batch.extractionJobs))).map Prod.snd =
        batch.read flag := by
    rw [TrackedStage.results_sweep, Finished.kept, List.filterMap_map, List.map_filterMap,
      Batch.read]
    refine List.filterMap_congr fun job _ => ?_
    rw [Function.comp_apply, Option.map_map]
    exact Option.map_id'
  rw [StageReport.map_value_live, extraction_run, runExtraction,
    TrackedStage.livePairs_run, ← hread]
  exact (ascendingBy_perm _ _).map Prod.snd

/-- So its fragments are of the batch, -/
theorem fragments_subset (pipeline : Pipeline) (batch : Batch) (flag : Bool) (key : BuilderKey) :
    (pipeline.run batch flag).2.fragments key ⊆ batch.fragments key := by
  intro spec hspec
  obtain ⟨hmem, hkey⟩ := mem_fragmentsOf.1 hspec
  have hread := (specs_perm_read pipeline batch flag).mem_iff.1 hmem
  exact mem_fragmentsOf.2 ⟨Batch.read_subset_specs hread, hkey⟩

namespace Remembers

/-- and so are the builders that it merges. -/
theorem map_key_merge_subset (h : pipeline.Remembers last) :
    (pipeline.run batch flag).2.merge.live.map StageOutput.key ⊆ batch.builders := by
  intro key hkey
  obtain ⟨output, houtput, rfl⟩ := List.mem_map.1 hkey
  obtain ⟨job, hjob, hjobKey, -⟩ := h.merge.job_of_mem_live houtput
  obtain ⟨⟨spec, hspec, hspecKey⟩, -⟩ := mem_mergeJobs.1 hjob
  have hread := (specs_perm_read pipeline batch flag).mem_iff.1 hspec
  exact Batch.mem_builders.2 ⟨spec, Batch.read_subset_specs hread, hspecKey.trans hjobKey⟩

/-- **Whatever a run hands out is right for what it has read**: an artifact
of a builder is its text, merged from the fragments that the run extracted. -/
theorem text_of_artifact (h : pipeline.Remembers last) {artifact : Artifact}
    (hartifact : artifact ∈ (pipeline.run batch flag).2.artifacts) :
    artifact ∈ supportArtifacts pipeline.config.options ∨
      ∃ key, (pipeline.run batch flag).2.naming.id? key = some artifact.id ∧
        emitBuilder (mergeFragments ((pipeline.run batch flag).2.fragments key)).spec
          pipeline.config.options = .ok artifact.text := by
  rw [artifacts_run, artifactsOf, mem_ascendingBy, List.mem_append] at hartifact
  refine hartifact.imp_right fun hwritten => ?_
  obtain ⟨output, houtput, hsome⟩ := List.mem_filterMap.1 hwritten
  obtain ⟨text, htext, hsome⟩ := Option.bind_eq_some_iff.1 hsome
  obtain ⟨id, hid, hsome⟩ := Option.bind_eq_some_iff.1 hsome
  obtain rfl := Option.some.inj hsome
  -- the output comes from a merged builder, and that from the fragments
  obtain ⟨job, hjob, hkey, houtcome⟩ := h.emission.job_of_mem_live houtput
  obtain ⟨merged, hmerged, rfl⟩ := List.mem_map.1 hjob
  obtain ⟨job, hjob, hmergedKey, hvalue⟩ := h.merge.job_of_mem_live hmerged
  have hmergedKey : job.key = output.key := hmergedKey.trans hkey
  rw [houtcome, EmitOutcome.text?_ofSpec, hvalue, input_of_mem_mergeJobs hjob, hmergedKey] at htext
  exact ⟨output.key, hid, htext⟩

/-- **A run to the end that nothing disturbs** hands out the artifacts of the
batch. -/
theorem mem_artifacts_runToEnd (h : pipeline.Remembers last) {artifact : Artifact} :
    artifact ∈ (pipeline.runToEnd batch).2.artifacts ↔
      artifact ∈ supportArtifacts pipeline.config.options ∨
        ∃ key ∈ batch.builders, batch.ArtifactFor pipeline.config.options key artifact := by
  rw [runToEnd, h.mem_artifacts_iff (cancelled_runToEnd pipeline batch),
    Batch.builders_undisturbed]
  simp only [Batch.artifactFor_undisturbed]

/-- **An artifact of a builder, compared** with a run to the end. -/
theorem partialFor (h : pipeline.Remembers last) {artifact : Artifact}
    (hid : (pipeline.run batch flag).2.naming.id? key = some artifact.id)
    (htext : emitBuilder (mergeFragments ((pipeline.run batch flag).2.fragments key)).spec
      pipeline.config.options = .ok artifact.text) :
    (pipeline.run batch flag).2.PartialFor (pipeline.runToEnd batch).2 pipeline.config.options key
      artifact := by
  have hnaming : (pipeline.runToEnd batch).2.naming = batch.naming := by
    rw [runToEnd, h.naming_eq (cancelled_runToEnd pipeline batch), Batch.naming_undisturbed]
  have hfragments : (pipeline.runToEnd batch).2.fragments key = batch.fragments key := by
    rw [runToEnd, fragments_run (cancelled_runToEnd pipeline batch), Batch.fragments_undisturbed]
  have hnamed := Resolution.mem_of_id? hid
  have hkey : key ∈ batch.builders := h.map_key_merge_subset hnamed
  -- with all its fragments, the builder has the same text
  have hfull : ∀ id, (pipeline.run batch flag).2.fragments key = batch.fragments key →
      batch.naming.id? key = some id →
        ⟨id, artifact.text⟩ ∈ (pipeline.runToEnd batch).2.artifacts := by
    intro id heq hfullId
    refine h.mem_artifacts_runToEnd.2 (.inr ⟨key, hkey, hfullId, ?_⟩)
    rw [Batch.merged, ← heq]
    exact htext
  refine
    { id := hid
      text := htext
      fragments := hfragments ▸ fragments_subset pipeline batch flag key
      finished := fun heq => ?_
      same := fun heq hbase => ?_ }
  · obtain ⟨id, hfullId⟩ := Batch.exists_id hkey
    exact ⟨id, hnaming ▸ hfullId, hfull id (heq.trans hfragments) hfullId⟩
  · rw [hnaming] at hbase
    have hsame := Resolution.id?_base_of_subset h.map_key_merge_subset hnamed hbase
    have hartifactId : artifact.id = ⟨Naming.baseIdentifier key.scope key.name⟩ :=
      Option.some.inj (hid.symm.trans hsame)
    have hmem := hfull _ (heq.trans hfragments) hbase
    rw [← hartifactId] at hmem
    exact hmem

/-! ## What a run that is called off finds -/

section Found

variable {early : Batch} {other : Bool} (h : pipeline.Remembers last)
variable (hcomplete : (pipeline.run early flag).2.cancelled = false)
variable (hcancelled : ((pipeline.run early flag).1.run batch other).2.cancelled = true)
variable (hread : (batch.read other).Perm early.specs)

include h hcomplete hcancelled hread

/-- A run that is called off merges what the last run to the end merged, if
it has read just that. -/
theorem livePairs_merge_of_read :
    ((pipeline.run early flag).1.run batch other).2.merge.livePairs =
      (pipeline.run early flag).2.merge.livePairs := by
  have hjobs : mergeJobs (((pipeline.run early flag).1.run batch other).2.extraction.live.map
        StageOutput.value) =
      mergeJobs ((pipeline.run early flag).2.extraction.live.map StageOutput.value) :=
    mergeJobs_congr ((specs_perm_read _ batch other).trans
      (hread.trans (specs_perm hcomplete).symm))
  have hflag : ((pipeline.run early flag).1.run batch other).2.extraction.complete = false :=
    (incomplete_of_cancelled hcancelled).1
  rw [merge_run, runMerge, hflag, hjobs, h.livePairs_merge hcomplete]
  refine (h.run_of_complete hcomplete).merge.livePairs_of_flag (ascendsBy_mergeJobs _)
    fun job hjob => ?_
  exact (h.describes_merged hcomplete _ _ _).2 ⟨job, hjob, rfl, rfl, rfl⟩

/-- And it emits what that run emitted. -/
theorem livePairs_emission_of_read :
    ((pipeline.run early flag).1.run batch other).2.emission.livePairs =
      (pipeline.run early flag).2.emission.livePairs := by
  have hjobs := emissionJobs_congr (h.livePairs_merge_of_read hcomplete hcancelled hread)
  have hflag : ((pipeline.run early flag).1.run batch other).2.merge.complete = false :=
    (incomplete_of_cancelled hcancelled).2
  rw [emission_run, runEmission, hflag, hjobs, h.livePairs_emission hcomplete]
  refine (h.run_of_complete hcomplete).emission.livePairs_of_flag
    (ascendsBy_emissionJobs (ascendsBy_merge pipeline early flag)) fun job hjob => ?_
  exact (h.describes_emitted hcomplete _ _ _).2 ⟨job, hjob, rfl, rfl, rfl⟩

/-- **What is found is what the last run to the end was about**: a run that
is called off when it has read just that hands out the artifacts of that
run. -/
theorem artifacts_of_read :
    ((pipeline.run early flag).1.run batch other).2.artifacts =
      (pipeline.run early flag).2.artifacts := by
  rw [artifacts_run, artifacts_run, StageReport.map_key_live, StageReport.map_key_live,
    h.livePairs_merge_of_read hcomplete hcancelled hread,
    artifactsOf_congr _ _ (h.livePairs_emission_of_read hcomplete hcancelled hread)]
  rfl

end Found

end Remembers

/-- **Partial results are right for what was read.** Also when a run is
called off, every artifact that it hands out is one that every run hands out,
or the text of a builder for the fragments that were read, and with all of
its fragments it is the text that a run to the end hands out. -/
theorem partial_results (config : GeneratorConfig) (history : List Request) (request : Request)
    {artifact : Artifact}
    (hartifact : artifact ∈
      (((Pipeline.new config).after history).serve request).2.artifacts) :
    artifact ∈ supportArtifacts config.options ∧
        artifact ∈ (((Pipeline.new config).after history).runToEnd request.batch).2.artifacts ∨
      ∃ key ∈ request.batch.builders,
        (((Pipeline.new config).after history).serve request).2.PartialFor
          (((Pipeline.new config).after history).runToEnd request.batch).2 config.options key
          artifact := by
  have hremembers := remembers_after config history
  have hoptions : ((Pipeline.new config).after history).config.options = config.options :=
    congrArg GeneratorConfig.options (config_after (.new config) history)
  rw [← hoptions]
  rcases hremembers.text_of_artifact hartifact with hsupport | ⟨key, hid, htext⟩
  · exact .inl ⟨hsupport, hremembers.mem_artifacts_runToEnd.2 (.inl hsupport)⟩
  · exact .inr ⟨key, hremembers.map_key_merge_subset (Resolution.mem_of_id? hid),
      hremembers.partialFor hid htext⟩

/-- The batch with troubles before two of its declarations were written. -/
def untroubled : Batch where
  catalog := (Batch.troubled false).catalog
  declarations := (Batch.troubled false).declarations.take 2

/-- It is read to the end. -/
theorem cancelled_untroubled :
    ((Pipeline.new .standard).run untroubled false).2.cancelled = false := by
  rw [cancelled_eq_any]
  decide +kernel

/-- A run on the batch with troubles that is called off by the second
declaration hands out the artifacts from before. -/
theorem artifacts_troubled :
    (((Pipeline.new .standard).after [⟨untroubled, false⟩]).serve
        ⟨.troubled true, false⟩).2.artifacts =
      ((Pipeline.new .standard).run untroubled false).2.artifacts := by
  have hread : (Batch.troubled true).read false = untroubled.specs := by decide +kernel
  exact (remembers_new .standard).artifacts_of_read cancelled_untroubled
    (cancelled_troubled _ true false) (.of_eq hread)

/-- The artifact of the builder that has another identifier in a run to the
end. -/
theorem partial_results_of_troubled :
    (((Pipeline.new .standard).after [⟨untroubled, false⟩]).serve
        ⟨.troubled true, false⟩).2.cancelled = true ∧
      ∃ artifact ∈ (((Pipeline.new .standard).after [⟨untroubled, false⟩]).serve
          ⟨.troubled true, false⟩).2.artifacts,
        artifact.id = ⟨"A_B_Builder"⟩ ∧
          (artifact ∈ supportArtifacts .standard ∧ artifact ∈
              (((Pipeline.new .standard).after [⟨untroubled, false⟩]).runToEnd
                (.troubled true)).2.artifacts ∨
            ∃ key ∈ (Batch.troubled true).builders,
              (((Pipeline.new .standard).after [⟨untroubled, false⟩]).serve
                  ⟨.troubled true, false⟩).2.PartialFor
                (((Pipeline.new .standard).after [⟨untroubled, false⟩]).runToEnd
                  (.troubled true)).2 .standard key artifact) := by
  have hid : untroubled.naming.id? .rival = some ⟨"A_B_Builder"⟩ := by decide +kernel
  obtain ⟨artifact, hartifact, hartifactId⟩ :=
    (remembers_new .standard).exists_mem_artifacts cancelled_untroubled hid (by decide +kernel)
  rw [← artifacts_troubled] at hartifact
  exact ⟨cancelled_troubled _ true false, artifact, hartifact, hartifactId,
    partial_results .standard [⟨untroubled, false⟩] ⟨.troubled true, false⟩ hartifact⟩

/-- With both its fragments, the builder that is divided cannot be written
either. -/
theorem accepts_divided : (Batch.troubled false).accepts .standard .divided = false := by
  have hspecs : (Batch.troubled false).specs.filter (fun spec => spec.key = .divided) =
      [.ofMembers "Builder" "A" "app::Point" [],
       .ofMembers "Builder" "A" "app::Broken" [⟨"", "f32", .settable, .anywhere⟩]] := by
    decide +kernel
  have hascends : AscendsBy id
      [BuilderSpec.ofMembers "Builder" "A" "app::Broken" [⟨"", "f32", .settable, .anywhere⟩],
       .ofMembers "Builder" "A" "app::Point" []] := by
    unfold AscendsBy
    decide +kernel
  rw [Batch.accepts, Batch.merged, Batch.fragments, fragmentsOf, hspecs,
    ascending_congr (.swap _ _ _), ascending, hascends.ascendingBy_eq]
  decide +kernel

/-- **Partial results that a run to the end does not have**: the artifact of
a builder of which a fragment was left, and that of a builder which another
one keeps from its base. -/
theorem partial_results_lost :
    (((Pipeline.new .standard).after [⟨untroubled, false⟩]).serve
        ⟨.troubled true, false⟩).2.cancelled = true ∧
      ∀ id ∈ [ArtifactId.mk "A_Builder", ⟨"A_B_Builder"⟩],
        ∃ artifact ∈ (((Pipeline.new .standard).after [⟨untroubled, false⟩]).serve
            ⟨.troubled true, false⟩).2.artifacts,
          artifact.id = id ∧
            artifact ∉ (((Pipeline.new .standard).after [⟨untroubled, false⟩]).runToEnd
              (.troubled true)).2.artifacts := by
  have hearly : ∀ id ∈ [ArtifactId.mk "A_Builder", ⟨"A_B_Builder"⟩], ∃ key ∈ untroubled.builders,
      untroubled.naming.id? key = some id ∧ untroubled.accepts .standard key = true := by
    decide +kernel
  have hlate : ∀ id ∈ [ArtifactId.mk "A_Builder", ⟨"A_B_Builder"⟩],
      ∃ key ∈ [BuilderKey.divided, .broken],
        (Batch.troubled false).naming.id? key = some id := by
    decide +kernel
  have hrejected : ∀ key ∈ [BuilderKey.divided, .broken],
      (Batch.troubled false).accepts .standard key = false := by
    intro key hkey
    rcases List.mem_cons.1 hkey with rfl | hkey
    · exact accepts_divided
    · obtain rfl := List.mem_singleton.1 hkey
      decide +kernel
  refine ⟨cancelled_troubled _ true false, fun id hmem => ?_⟩
  rw [artifacts_troubled]
  obtain ⟨key, -, hid, haccepted⟩ := hearly id hmem
  obtain ⟨artifact, hartifact, hartifactId⟩ :=
    (remembers_new .standard).exists_mem_artifacts cancelled_untroubled hid haccepted
  refine ⟨artifact, hartifact, hartifactId, fun hfull => ?_⟩
  obtain ⟨holder, hholder, hholderId⟩ := hlate id hmem
  exact (remembers_after .standard [⟨untroubled, false⟩]).id_ne_of_mem_artifacts
    (cancelled_runToEnd _ (.troubled true)) hholderId (hrejected holder hholder) hfull hartifactId

end Pipeline

end BuilderForge
