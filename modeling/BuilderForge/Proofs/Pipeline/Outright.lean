import BuilderForge.Proofs.Pipeline.Artifacts
import BuilderForge.Proofs.Naming.Fewer
import BuilderForge.Proofs.Pipeline.FromScratch
import BuilderForge.Proofs.Pipeline.Memory

/-!
# What a batch comes to

A batch determines its builders, the fragments of each, the merged builder,
the identifier and the outcome of writing it, without any stage or memory.
A run to the end hands out just these, whatever the pipeline remembers
(`Remembers.artifacts_eq`, `Remembers.diagnostics_eq`).
-/

namespace BuilderForge

open Std

/-! ## The builders of a batch -/

/-- The fragments of a builder do not depend on the order of discovery. -/
theorem fragmentsOf_congr {specs others : List BuilderSpec} (h : specs.Perm others)
    (key : BuilderKey) : fragmentsOf specs key = fragmentsOf others key :=
  ascending_congr (h.filter _)

/-- And neither do the jobs of the merge. -/
theorem mergeJobs_congr {specs others : List BuilderSpec} (h : specs.Perm others) :
    mergeJobs specs = mergeJobs others := by
  have hkeys : distinctAscending (specs.map BuilderSpec.key) =
      distinctAscending (others.map BuilderSpec.key) :=
    distinctAscending_congr fun key => (h.map BuilderSpec.key).mem_iff
  rw [mergeJobs, mergeJobs, hkeys]
  exact List.map_congr_left fun key _ => by rw [fragmentsOf_congr h]

namespace Batch

variable (batch : Batch) (options : EmitOptions) (key : BuilderKey)

/-- The specifications that the declarations of a batch give. -/
def specs : List BuilderSpec :=
  batch.extracted.map Prod.snd

/-- The builders that have fragments in a batch, ascending. -/
def builders : List BuilderKey :=
  distinctAscending (batch.specs.map BuilderSpec.key)

/-- The fragments of a builder, ascending. -/
def fragments : List BuilderSpec :=
  fragmentsOf batch.specs key

/-- A builder, merged from its fragments. -/
def merged : MergedBuilder :=
  mergeFragments (batch.fragments key)

/-- What writing a builder comes to. -/
def outcome : EmitOutcome :=
  .ofSpec options (batch.merged key).spec

/-- The identifiers of the builders of a batch. -/
def naming : Resolution :=
  .ofKeys batch.builders

/-- The artifact of a builder, if it can be written. -/
def artifact? : Option Artifact :=
  batch.naming.artifact? ⟨key, batch.outcome options key, .new⟩

variable {batch options key}

/-- The specifications of a batch, declaration by declaration. -/
theorem specs_eq : batch.specs =
    (firstBy Declaration.id batch.declarations).filterMap (Declaration.extract batch.catalog) := by
  rw [specs, extracted, List.map_filterMap]
  refine List.filterMap_congr fun declaration _ => ?_
  rw [Option.map_map]
  exact Option.map_id'

/-- The builders of a batch ascend strictly. -/
theorem ascendsBy_builders : AscendsBy id batch.builders :=
  ascendsBy_distinctAscending _

/-- A builder of a batch is one that has a fragment there. -/
theorem mem_builders : key ∈ batch.builders ↔ ∃ spec ∈ batch.specs, spec.key = key := by
  rw [builders, mem_distinctAscending, List.mem_map]

/-- Every builder of a batch has an identifier. -/
theorem exists_id (h : key ∈ batch.builders) : ∃ id, batch.naming.id? key = some id :=
  Resolution.exists_id?_iff.2 h

/-- The jobs that a batch gives to the merge. -/
theorem mergeJobs_specs : mergeJobs batch.specs =
    batch.builders.map fun key => ⟨key, batch.fragments key, false⟩ := rfl

end Batch

/-! ## Runs to the end -/

/-- The identifiers of the builders that a run merged. -/
def RunResult.naming (run : RunResult) : Resolution :=
  .ofKeys (run.merge.live.map StageOutput.key)

namespace Pipeline

variable {pipeline : Pipeline} {last : Option RunResult} {batch : Batch} {flag : Bool}

/-- A run to the end extracts the specifications of the batch. -/
theorem specs_perm (hcomplete : (pipeline.run batch flag).2.cancelled = false) :
    ((pipeline.run batch flag).2.extraction.live.map StageOutput.value).Perm batch.specs := by
  have hextracted : (pipeline.run batch flag).2.extraction.livePairs =
      ascendingBy Prod.fst batch.extracted :=
    livePairs_runExtraction (complete_of_not_cancelled hcomplete).1
  rw [StageReport.map_value_live, hextracted]
  exact (ascendingBy_perm _ _).map Prod.snd

/-- So its fragments are those of the batch. -/
theorem fragments_run (hcomplete : (pipeline.run batch flag).2.cancelled = false)
    (key : BuilderKey) : (pipeline.run batch flag).2.fragments key = batch.fragments key :=
  fragmentsOf_congr (specs_perm hcomplete) key

namespace Remembers

/-- **A run to the end merges the builders of the batch.** -/
theorem livePairs_merge_eq (h : pipeline.Remembers last)
    (hcomplete : (pipeline.run batch flag).2.cancelled = false) :
    (pipeline.run batch flag).2.merge.livePairs =
      batch.builders.map fun key => (key, batch.merged key) := by
  rw [h.livePairs_merge hcomplete, mergeJobs_congr (specs_perm hcomplete), Batch.mergeJobs_specs,
    List.map_map]
  rfl

/-- **And it writes each of them.** -/
theorem livePairs_emission_eq (h : pipeline.Remembers last)
    (hcomplete : (pipeline.run batch flag).2.cancelled = false) :
    (pipeline.run batch flag).2.emission.livePairs =
      batch.builders.map fun key => (key, batch.outcome pipeline.config.options key) := by
  have hjobs : emissionJobs (pipeline.run batch flag).2.merge.live =
      (pipeline.run batch flag).2.merge.livePairs.map fun pair => ⟨pair.1, pair.2.spec, false⟩ := by
    rw [StageReport.livePairs, List.map_map]
    rfl
  rw [h.livePairs_emission hcomplete, hjobs, h.livePairs_merge_eq hcomplete, List.map_map,
    List.map_map]
  rfl

/-- Its builders are named as the batch names them. -/
theorem naming_eq (h : pipeline.Remembers last)
    (hcomplete : (pipeline.run batch flag).2.cancelled = false) :
    (pipeline.run batch flag).2.naming = batch.naming := by
  rw [RunResult.naming, StageReport.map_key_live, h.livePairs_merge_eq hcomplete, List.map_map,
    Batch.naming]
  exact congrArg Resolution.ofKeys (List.map_id batch.builders)

/-- What it says of a builder is what writing the builder comes to. -/
theorem value?_emission_eq_some_iff (h : pipeline.Remembers last)
    (hcomplete : (pipeline.run batch flag).2.cancelled = false) {key : BuilderKey}
    {outcome : EmitOutcome} :
    (pipeline.run batch flag).2.emission.value? key = some outcome ↔
      key ∈ batch.builders ∧ batch.outcome pipeline.config.options key = outcome := by
  simp [StageReport.value?_eq_some_iff (ascendsBy_emission pipeline batch flag).nodup_keys,
    h.livePairs_emission_eq hcomplete]

/-- **A run to the end hands out the artifacts of the batch.** -/
theorem artifacts_eq (h : pipeline.Remembers last)
    (hcomplete : (pipeline.run batch flag).2.cancelled = false) :
    (pipeline.run batch flag).2.artifacts =
      ascendingBy Artifact.id (supportArtifacts pipeline.config.options ++
        batch.builders.filterMap (batch.artifact? pipeline.config.options)) := by
  have hemitted : (pipeline.run batch flag).2.emission.live.filterMap batch.naming.artifact? =
      batch.builders.filterMap (batch.artifact? pipeline.config.options) := by
    rw [StageReport.filterMap_live _ fun _ _ => rfl, h.livePairs_emission_eq hcomplete,
      List.filterMap_map]
    rfl
  rw [artifacts_run, ← RunResult.naming, h.naming_eq hcomplete, ← hemitted]
  rfl

/-- **And it finds what there is to say about the batch.** -/
theorem diagnostics_eq (h : pipeline.Remembers last)
    (hcomplete : (pipeline.run batch flag).2.cancelled = false) :
    (pipeline.run batch flag).2.diagnostics =
      batch.builders.filterMap (fun key => conflictFinding? ⟨key, batch.merged key, .new⟩) ++
        batch.naming.collisions.map (fun collision =>
          collisionFinding collision.1 collision.2) ++
        batch.builders.filterMap fun key =>
          (batch.outcome pipeline.config.options key).diagnostic? := by
  rw [diagnostics_run, ← RunResult.naming, h.naming_eq hcomplete, findings,
    StageReport.filterMap_live _ fun _ _ => rfl, StageReport.filterMap_live _ fun _ _ => rfl,
    h.livePairs_merge_eq hcomplete, h.livePairs_emission_eq hcomplete, List.filterMap_map,
    List.filterMap_map]
  rfl

end Remembers

end Pipeline

/-! ## A batch with troubles -/

/-- A batch where there is something to say about each builder. The fragments
of one disagree; two others have one base, and the one that comes first
cannot be written, for a member of its target has no name. Reading the second
declaration may be the moment when the run is called off. -/
def Batch.troubled (cancels : Bool) : Batch where
  catalog :=
    [⟨"app::Point", [], none, false⟩,
     ⟨"app::Broken", [⟨"", "f32", some .anywhere, .anywhere, false⟩], none, false⟩]
  declarations :=
    [⟨⟨1⟩, "A", "Builder", .type 0, false⟩, ⟨⟨2⟩, "A::B", "Builder", .type 0, cancels⟩,
     ⟨⟨3⟩, "A.B", "Builder", .type 1, false⟩, ⟨⟨4⟩, "A", "Builder", .type 1, false⟩]

/-- The builder whose fragments disagree. -/
def BuilderKey.divided : BuilderKey where
  scope := "A"
  name := "Builder"

/-- The builder that cannot be written. -/
def BuilderKey.broken : BuilderKey where
  scope := "A.B"
  name := "Builder"

/-- The builder that would have had the same base. -/
def BuilderKey.rival : BuilderKey where
  scope := "A::B"
  name := "Builder"

/-- When a run on the batch is called off. -/
theorem Pipeline.cancelled_troubled (pipeline : Pipeline) (cancels flag : Bool) :
    (pipeline.run (.troubled cancels) flag).2.cancelled = (flag || cancels) := by
  rw [cancelled_eq_any]
  cases flag <;> cases cancels <;> cbv

end BuilderForge
