import BuilderForge.Proofs.Merge.Repetition
import BuilderForge.Proofs.Pipeline.Census
import BuilderForge.Proofs.Pipeline.Replay

/-!
# Builders are local

What a builder comes to is a matter of its own fragments, as a set: neither
the order in which they are found, nor their identities, nor how often one
of them is repeated makes a difference, and neither do the other builders of
the batch or what the pipeline did before. Only the identifier looks at
others, and of these it looks at nothing but which they are. So two runs to
the end that extract the same set of fragments for a builder come to the
same for it (`same_fragments_same_builder`), in whatever else they differ.
-/

namespace BuilderForge

open Std

namespace RunResult

/-- The specifications that a run extracted. -/
def specs (run : RunResult) : List BuilderSpec :=
  run.extraction.live.map StageOutput.value

/-- The builders that a run found fragments of. -/
def Finds (run : RunResult) (key : BuilderKey) : Prop :=
  ∃ spec ∈ run.specs, spec.key = key

/-- A run to the end of some pipeline with the given options, after some
history. -/
def IsComplete (run : RunResult) (options : EmitOptions) : Prop :=
  ∃ config history request, config.options = options ∧
    run = (((Pipeline.new config).after history).serve request).2 ∧ run.cancelled = false

/-- Two runs extract the same fragments of a builder, in whatever order and
however often. -/
def SameFragments (run other : RunResult) (key : BuilderKey) : Prop :=
  ∀ spec, spec.key = key → (spec ∈ run.specs ↔ spec ∈ other.specs)

/-- **Two runs come to the same for a builder.** -/
structure SameBuilder (run other : RunResult) (key : BuilderKey) : Prop where
  /-- The builder is merged into the same specification, with the same
  conflicts. -/
  merged : run.merge.value? key = other.merge.value? key
  /-- Writing it comes to the same. -/
  outcome : run.emission.value? key = other.emission.value? key
  /-- It has all of these, and an identifier, if it has a fragment. -/
  found : run.Finds key → (run.merge.value? key).isSome ∧ (run.emission.value? key).isSome ∧
    (run.naming.id? key).isSome
  /-- It has the same identifier if there are the same builders. -/
  id : (∀ builder, run.Finds builder ↔ other.Finds builder) →
    run.naming.id? key = other.naming.id? key
  /-- And then it also has the same artifact, or none in both. -/
  artifact : (∀ builder, run.Finds builder ↔ other.Finds builder) →
    ∀ id, run.naming.id? key = some id → run.artifact? id = other.artifact? id

end RunResult

namespace Batch

variable {batch other : Batch} {key : BuilderKey} {options : EmitOptions}

/-- **A merged builder is a matter of the set of its fragments.** -/
theorem merged_congr (h : ∀ spec, spec.key = key → (spec ∈ batch.specs ↔ spec ∈ other.specs)) :
    batch.merged key = other.merged key := by
  refine mergeFragments_congr (pairwise_ascendingBy _ _) (pairwise_ascendingBy _ _) fun spec => ?_
  rw [fragments, fragments, mem_fragmentsOf, mem_fragmentsOf]
  exact and_congr_left (h spec)

/-- Identifiers are a matter of the set of builders. -/
theorem naming_congr (h : ∀ builder, builder ∈ batch.builders ↔ builder ∈ other.builders) :
    batch.naming = other.naming := by
  have hbuilders : batch.builders = other.builders :=
    ascendsBy_builders.eq_of_mem_iff ascendsBy_builders h
  rw [naming, naming, hbuilders]

/-- And so the artifact of a builder is a matter of both. -/
theorem artifactFor_congr (hmerged : batch.merged key = other.merged key)
    (hnaming : batch.naming = other.naming) {artifact : Artifact} :
    batch.ArtifactFor options key artifact ↔ other.ArtifactFor options key artifact := by
  constructor
  · rintro ⟨hid, htext⟩
    exact ⟨hnaming ▸ hid, hmerged ▸ htext⟩
  · rintro ⟨hid, htext⟩
    exact ⟨hnaming ▸ hid, hmerged ▸ htext⟩

end Batch

/-- **A run tells what a batch comes to**, builder by builder. -/
structure RunResult.Tells (run : RunResult) (batch : Batch) (options : EmitOptions) : Prop where
  specs : ∀ spec, spec ∈ run.specs ↔ spec ∈ batch.specs
  merged : ∀ key merged, run.merge.value? key = some merged ↔
    key ∈ batch.builders ∧ batch.merged key = merged
  outcome : ∀ key outcome, run.emission.value? key = some outcome ↔
    key ∈ batch.builders ∧ batch.outcome options key = outcome
  naming : run.naming = batch.naming
  artifact : ∀ key id, batch.naming.id? key = some id → ∀ artifact,
    run.artifact? id = some artifact ↔ batch.ArtifactFor options key artifact

/-- So it finds the builders of the batch. -/
theorem RunResult.Tells.finds_iff {run : RunResult} {batch : Batch} {options : EmitOptions}
    (h : run.Tells batch options) {key : BuilderKey} : run.Finds key ↔ key ∈ batch.builders := by
  simp only [Finds, h.specs, Batch.mem_builders]

namespace Pipeline

namespace Remembers

variable {pipeline : Pipeline} {last : Option RunResult} {batch : Batch} {flag : Bool}

/-- What a run to the end says of a merged builder is what its fragments are
merged into. -/
theorem value?_merge_eq_some_iff (h : pipeline.Remembers last)
    (hcomplete : (pipeline.run batch flag).2.cancelled = false) {key : BuilderKey}
    {merged : MergedBuilder} :
    (pipeline.run batch flag).2.merge.value? key = some merged ↔
      key ∈ batch.builders ∧ batch.merged key = merged := by
  simp [StageReport.value?_eq_some_iff (ascendsBy_merge pipeline batch flag).nodup_keys,
    h.livePairs_merge_eq hcomplete]

/-- **The identifier of a builder finds its artifact**, and none if the
builder cannot be written. -/
theorem artifact?_eq_some_iff (h : pipeline.Remembers last)
    (hcomplete : (pipeline.run batch flag).2.cancelled = false) {key : BuilderKey}
    {id : ArtifactId} (hid : batch.naming.id? key = some id) {artifact : Artifact} :
    (pipeline.run batch flag).2.artifact? id = some artifact ↔
      batch.ArtifactFor pipeline.config.options key artifact := by
  have hids : ((pipeline.run batch flag).2.artifacts.map Artifact.id).Nodup :=
    nodup_ids_runUnder pipeline batch flag .none
  rw [RunResult.artifact?_eq_some_iff hids, h.mem_artifacts_iff hcomplete]
  constructor
  · rintro ⟨hsupport | ⟨other, -, hother⟩, rfl⟩
    · -- the identifiers of the support artifacts are given to nobody
      exact absurd (List.mem_map_of_mem (f := fun artifact : Artifact => artifact.id.text) hsupport)
        (Resolution.id?_not_reserved hid)
    · obtain rfl := Resolution.id?_injective hother.id hid
      exact hother
  · intro hartifact
    have hsame : artifact.id = id := Option.some.inj (hartifact.id.symm.trans hid)
    exact ⟨.inr ⟨key, Resolution.mem_of_id? hid, hartifact⟩, hsame⟩

/-- **A run to the end tells what its batch comes to.** -/
theorem tells (h : pipeline.Remembers last)
    (hcomplete : (pipeline.run batch flag).2.cancelled = false) :
    (pipeline.run batch flag).2.Tells batch pipeline.config.options where
  specs _ := (specs_perm hcomplete).mem_iff
  merged _ _ := h.value?_merge_eq_some_iff hcomplete
  outcome _ _ := h.value?_emission_eq_some_iff hcomplete
  naming := h.naming_eq hcomplete
  artifact _ _ hid _ := h.artifact?_eq_some_iff hcomplete hid

end Remembers

end Pipeline

/-- A run to the end tells what some batch comes to. -/
theorem RunResult.IsComplete.tells {run : RunResult} {options : EmitOptions}
    (h : run.IsComplete options) : ∃ batch, run.Tells batch options := by
  obtain ⟨config, history, request, rfl, rfl, hcomplete⟩ := h
  have htells := (Pipeline.remembers_after config history).tells hcomplete
  rw [Pipeline.config_after] at htells
  exact ⟨request.batch, htells⟩

namespace Pipeline

/-- **A builder is a matter of its own fragments.** Two runs to the end, of
pipelines that emit with the same options and after any histories, come to
the same for a builder if they extract the same fragments of it: the same
merged specification and the same outcome, and, if they find the same
builders, the same identifier. -/
theorem same_fragments_same_builder {options : EmitOptions} {run other : RunResult}
    (hrun : run.IsComplete options) (hother : other.IsComplete options) {key : BuilderKey}
    (hfragments : run.SameFragments other key) : run.SameBuilder other key := by
  obtain ⟨batch, htells⟩ := hrun.tells
  obtain ⟨otherBatch, hotherTells⟩ := hother.tells
  -- what the runs extract is what their batches give
  have hspecs : ∀ spec, spec.key = key → (spec ∈ batch.specs ↔ spec ∈ otherBatch.specs) := by
    intro spec hspec
    rw [← htells.specs, ← hotherTells.specs]
    exact hfragments spec hspec
  have hmerged : batch.merged key = otherBatch.merged key := Batch.merged_congr hspecs
  have hkey : key ∈ batch.builders ↔ key ∈ otherBatch.builders := by
    rw [Batch.mem_builders, Batch.mem_builders]
    exact exists_congr fun spec => and_congr_left (hspecs spec)
  have hnaming : (∀ builder, run.Finds builder ↔ other.Finds builder) →
      batch.naming = otherBatch.naming := by
    intro hfinds
    refine Batch.naming_congr fun builder => ?_
    rw [← htells.finds_iff, ← hotherTells.finds_iff]
    exact hfinds builder
  exact
    { merged := Option.ext fun merged => by
        rw [htells.merged, hotherTells.merged, hkey, hmerged]
      outcome := Option.ext fun outcome => by
        rw [htells.outcome, hotherTells.outcome, hkey, Batch.outcome, hmerged, Batch.outcome]
      found := fun hfound => by
        have hmem := htells.finds_iff.1 hfound
        obtain ⟨id, hid⟩ := Batch.exists_id hmem
        have hmerge := (htells.merged key _).2 ⟨hmem, rfl⟩
        have hemission := (htells.outcome key _).2 ⟨hmem, rfl⟩
        rw [hmerge, hemission, htells.naming, hid]
        exact ⟨rfl, rfl, rfl⟩
      id := fun hfinds => by rw [htells.naming, hotherTells.naming, hnaming hfinds]
      artifact := fun hfinds id hid => Option.ext fun artifact => by
        rw [htells.naming] at hid
        rw [htells.artifact key id hid, hotherTells.artifact key id (hnaming hfinds ▸ hid)]
        exact Batch.artifactFor_congr hmerged (hnaming hfinds) }

/-- The builders of the batch with troubles, found in another order and under
other identities. The fragments of one are repeated, and another one has a
target that can be written. -/
def rearranged : Batch where
  catalog := (Batch.troubled false).catalog
  declarations :=
    [⟨⟨9⟩, "A", "Builder", .type 1, false⟩, ⟨⟨8⟩, "A.B", "Builder", .type 0, false⟩,
     ⟨⟨7⟩, "A", "Builder", .type 0, false⟩, ⟨⟨3⟩, "A", "Builder", .type 1, false⟩,
     ⟨⟨2⟩, "A::B", "Builder", .type 0, false⟩, ⟨⟨1⟩, "A", "Builder", .type 0, false⟩]

/-- The builder whose fragments disagree is the same in both, and it has the
same identifier. -/
theorem same_fragments_same_builder_of_rearranged :
    ((Pipeline.new .standard).serve ⟨.troubled false, false⟩).2.IsComplete .standard ∧
      (((Pipeline.new .sequential).after [⟨.troubled true, false⟩]).serve
        ⟨rearranged, false⟩).2.IsComplete .standard ∧
      ((Pipeline.new .standard).serve ⟨.troubled false, false⟩).2.SameFragments
        (((Pipeline.new .sequential).after [⟨.troubled true, false⟩]).serve
          ⟨rearranged, false⟩).2 .divided ∧
      ((Pipeline.new .standard).serve ⟨.troubled false, false⟩).2.SameBuilder
        (((Pipeline.new .sequential).after [⟨.troubled true, false⟩]).serve
          ⟨rearranged, false⟩).2 .divided := by
  have hcomplete := cancelled_troubled (.new .standard) false false
  have hrearranged : (((Pipeline.new .sequential).after [⟨.troubled true, false⟩]).run
      rearranged false).2.cancelled = false := by
    rw [cancelled_eq_any]
    decide +kernel
  have hrun : ((Pipeline.new .standard).serve ⟨.troubled false, false⟩).2.IsComplete .standard :=
    ⟨.standard, [], _, rfl, rfl, hcomplete⟩
  have hother : (((Pipeline.new .sequential).after [⟨.troubled true, false⟩]).serve
      ⟨rearranged, false⟩).2.IsComplete .standard := ⟨.sequential, _, _, rfl, rfl, hrearranged⟩
  have hthere : ∀ spec ∈ (Batch.troubled false).specs, spec.key = .divided →
      spec ∈ rearranged.specs := by decide +kernel
  have hback : ∀ spec ∈ rearranged.specs, spec.key = .divided →
      spec ∈ (Batch.troubled false).specs := by decide +kernel
  have hfragments : ((Pipeline.new .standard).serve ⟨.troubled false, false⟩).2.SameFragments
      (((Pipeline.new .sequential).after [⟨.troubled true, false⟩]).serve
        ⟨rearranged, false⟩).2 .divided := by
    intro spec hspec
    rw [RunResult.specs, RunResult.specs, serve, serve, (specs_perm hcomplete).mem_iff,
      (specs_perm hrearranged).mem_iff]
    exact ⟨fun hmem => hthere spec hmem hspec, fun hmem => hback spec hmem hspec⟩
  exact ⟨hrun, hother, hfragments, same_fragments_same_builder hrun hother hfragments⟩

end Pipeline

end BuilderForge
