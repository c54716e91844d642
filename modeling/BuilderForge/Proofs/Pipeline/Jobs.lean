import BuilderForge.Pipeline.Jobs
import BuilderForge.Proofs.Merge.Union

/-!
# Jobs know their builders

The merge gets one job for each builder, with all its fragments, and the
emission gets the merged specification. In both an input tells whose it is:
the fragments of a builder all carry its key, and merging them keeps it. The
jobs of both ascend strictly by key, and none of them calls a run off of
itself.
-/

namespace BuilderForge

open Std

/-- The fragments of a builder are the specifications with its key. -/
theorem mem_fragmentsOf {specs : List BuilderSpec} {key : BuilderKey} {spec : BuilderSpec} :
    spec ∈ fragmentsOf specs key ↔ spec ∈ specs ∧ spec.key = key := by
  simp [fragmentsOf]

section Merge

variable {specs : List BuilderSpec} {job : Job BuilderKey (List BuilderSpec)}

/-- There is one job for each builder that has fragments. -/
theorem mem_mergeJobs : job ∈ mergeJobs specs ↔
    (∃ spec ∈ specs, spec.key = job.key) ∧ job = ⟨job.key, fragmentsOf specs job.key, false⟩ := by
  simp only [mergeJobs, List.mem_map, mem_distinctAscending]
  constructor
  · rintro ⟨_, ⟨spec, hspec, rfl⟩, rfl⟩
    exact ⟨⟨spec, hspec, rfl⟩, rfl⟩
  · rintro ⟨⟨spec, hspec, hkey⟩, hjob⟩
    exact ⟨job.key, ⟨spec, hspec, hkey⟩, hjob.symm⟩

/-- The input of a job is the fragments of its builder. -/
theorem input_of_mem_mergeJobs (h : job ∈ mergeJobs specs) :
    job.input = fragmentsOf specs job.key := by
  rw [(mem_mergeJobs.1 h).2]

/-- The jobs of the merge ascend strictly. -/
theorem ascendsBy_mergeJobs (specs : List BuilderSpec) : AscendsBy Job.key (mergeJobs specs) :=
  ascendsBy_map.2 (ascendsBy_distinctAscending _)

/-- **Fragments tell their builder**: merged, they have the key of their job. -/
theorem keyed_mergeJobs (h : job ∈ mergeJobs specs) :
    (mergeFragments job.input).spec.key = job.key := by
  obtain ⟨⟨spec, hspec, hkey⟩, -⟩ := mem_mergeJobs.1 h
  have hmem : spec ∈ fragmentsOf specs job.key := mem_fragmentsOf.2 ⟨hspec, hkey⟩
  rw [input_of_mem_mergeJobs h]
  cases hfragments : fragmentsOf specs job.key with
  | nil =>
    rw [hfragments] at hmem
    cases hmem
  | cons first rest =>
    have hfirst : first ∈ fragmentsOf specs job.key := hfragments ▸ List.mem_cons_self
    rw [key_mergeFragments]
    exact (mem_fragmentsOf.1 hfirst).2

/-- Merging calls no run off of itself. -/
theorem quiet_mergeJobs (h : job ∈ mergeJobs specs) : job.cancels = false := by
  rw [(mem_mergeJobs.1 h).2]

end Merge

section Emission

variable {merged : List (StageOutput BuilderKey MergedBuilder)} {job : Job BuilderKey BuilderSpec}

/-- The jobs of the emission ascend with the merged builders. -/
theorem ascendsBy_emissionJobs (h : AscendsBy StageOutput.key merged) :
    AscendsBy Job.key (emissionJobs merged) :=
  ascendsBy_map.2 h

/-- **A merged specification tells its builder.** -/
theorem keyed_emissionJobs (h : ∀ output ∈ merged, output.value.spec.key = output.key)
    (hjob : job ∈ emissionJobs merged) : job.input.key = job.key := by
  obtain ⟨output, houtput, rfl⟩ := List.mem_map.1 hjob
  exact h output houtput

/-- Emission calls no run off of itself. -/
theorem quiet_emissionJobs (hjob : job ∈ emissionJobs merged) : job.cancels = false := by
  obtain ⟨output, -, rfl⟩ := List.mem_map.1 hjob
  rfl

end Emission

end BuilderForge
