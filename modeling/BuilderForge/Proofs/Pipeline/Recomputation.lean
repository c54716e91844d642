import BuilderForge.Proofs.Pipeline.Memory

/-!
# Exact recomputation

What a run recomputes, and what it says about it, is a comparison with the
last run that was not called off, builder by builder. The stages make no
such comparison: a memo is asked for an input and not for a key, and runs
that were called off have written to the remembered outputs in between. The
comparison comes out all the same, since a pipeline remembers exactly that
run (`remembers_after`) and an input tells its builder.
-/

namespace BuilderForge

namespace Pipeline

variable {pipeline : Pipeline} {last : Option RunResult} {batch : Batch} {flag : Bool}

namespace Remembers

/-- The merge of a run to the end accounts for the fragments. -/
theorem accounts_merge (h : pipeline.Remembers last)
    (hcomplete : (pipeline.run batch flag).2.cancelled = false) :
    (pipeline.run batch flag).2.merge.Accounts (fun key => last.bind (·.merged? key))
      (pipeline.run batch flag).2.merged? :=
  h.merge.accounts (complete_of_not_cancelled hcomplete).2.1 (ascendsBy_mergeJobs _)
    (fun _ => keyed_mergeJobs) (h.describes_merged hcomplete)

/-- And its emission for the merged specifications. -/
theorem accounts_emission (h : pipeline.Remembers last)
    (hcomplete : (pipeline.run batch flag).2.cancelled = false) :
    (pipeline.run batch flag).2.emission.Accounts (fun key => last.bind (·.emitted? key))
      (pipeline.run batch flag).2.emitted? :=
  h.emission.accounts (complete_of_not_cancelled hcomplete).2.2
    (ascendsBy_emissionJobs (ascendsBy_merge pipeline batch flag)) (fun _ => h.keyed_emission)
    (h.describes_emitted hcomplete)

end Remembers

/-- A run to the end has merged and emitted exactly the builders that are
live in its reports, so nothing is lost in comparing a later run with what
it says about them. -/
theorem isSome_of_lastComplete {config : GeneratorConfig} {history : List Request}
    {run : RunResult} (h : lastComplete ((Pipeline.new config).results history) = some run)
    (key : BuilderKey) :
    ((run.merged? key).isSome ↔ ∃ output ∈ run.merge.live, output.key = key) ∧
      ((run.emitted? key).isSome ↔ ∃ output ∈ run.emission.live, output.key = key) := by
  obtain ⟨earlier, request, -, rfl, hcomplete⟩ := exists_of_lastComplete _ _ h
  have hremembers := remembers_after config earlier
  exact ⟨(hremembers.accounts_merge hcomplete).isSome_iff,
    (hremembers.accounts_emission hcomplete).isSome_iff⟩

/-- **Recomputation is exact and minimal.** After every history, a run to the
end accounts for itself against the last run to the end before it: in the
merge with the fragments of each builder as input, in the emission with its
merged specification, and with nothing to compare with if there was no such
run. What is recalled is what had the same input there, what is computed is
the rest, and what is removed is what is not there any more. -/
theorem recomputation_exact (config : GeneratorConfig) (history : List Request)
    (request : Request)
    (hcomplete : (((Pipeline.new config).after history).serve request).2.cancelled = false) :
    (((Pipeline.new config).after history).serve request).2.merge.Accounts
        (fun key => (lastComplete ((Pipeline.new config).results history)).bind (·.merged? key))
        (((Pipeline.new config).after history).serve request).2.merged? ∧
      (((Pipeline.new config).after history).serve request).2.emission.Accounts
        (fun key => (lastComplete ((Pipeline.new config).results history)).bind (·.emitted? key))
        (((Pipeline.new config).after history).serve request).2.emitted? := by
  have hremembers := remembers_after config history
  exact ⟨hremembers.accounts_merge hcomplete, hremembers.accounts_emission hcomplete⟩

/-- A member is renamed, and the first run that reads the new name is called
off: the run that follows is compared with the one before both. -/
theorem recomputation_exact_of_renamed :
    (((Pipeline.new .standard).after [⟨.single "x" false, false⟩,
        ⟨.single "y" true, false⟩]).serve ⟨.single "y" false, false⟩).2.cancelled = false ∧
      (((Pipeline.new .standard).after [⟨.single "x" false, false⟩,
        ⟨.single "y" true, false⟩]).serve ⟨.single "y" false, false⟩).2.merge.Accounts
          (fun key => (lastComplete ((Pipeline.new .standard).results
            [⟨.single "x" false, false⟩, ⟨.single "y" true, false⟩])).bind (·.merged? key))
          (((Pipeline.new .standard).after [⟨.single "x" false, false⟩,
            ⟨.single "y" true, false⟩]).serve ⟨.single "y" false, false⟩).2.merged? := by
  have hcomplete := cancelled_single ((Pipeline.new .standard).after
    [⟨.single "x" false, false⟩, ⟨.single "y" true, false⟩]) false "y" false
  exact ⟨hcomplete, (recomputation_exact _ _ ⟨_, _⟩ hcomplete).1⟩

end Pipeline

end BuilderForge
