import BuilderForge.Proofs.Pipeline.Soundness

/-!
# Incremental runs and runs from scratch

What a pipeline remembers saves work and nothing else: a run to the end
answers what a new pipeline answers on the same batch. Both have memos that
are right, the one since it was reached from a new pipeline by runs
(`Reached.sound`), the other since it has none yet, and the new one need not
listen to being called off.
-/

namespace BuilderForge

namespace Pipeline

/-- What is run to the end is not called off. -/
theorem cancelled_runToEnd (pipeline : Pipeline) (batch : Batch) :
    (pipeline.runToEnd batch).2.cancelled = false := by
  rw [runToEnd, cancelled_eq_any, Batch.quiet_undisturbed]
  rfl

/-- **However a host came by a pipeline**, a run to the end answers what a new
one answers that listens to nothing. -/
theorem Reached.sameAnswer {config : GeneratorConfig} {pipeline : Pipeline}
    {results : List RunResult} (h : Reached config pipeline results) {batch : Batch} {flag : Bool}
    {signals : Signals} (hcomplete : (pipeline.runUnder batch flag signals).2.cancelled = false) :
    (pipeline.runUnder batch flag signals).2.SameAnswer
      ((Pipeline.new config).runToEnd batch).2 :=
  h.sound.sameAnswer (sound_new config) h.config_eq batch.extracted_undisturbed.symm hcomplete
    (cancelled_runToEnd _ batch)

/-- **Incremental equals from scratch.** After every history, a run to the
end answers what a new pipeline with the same configuration answers when it
is run once on the batch. That run comes to an end as well, and it makes no
difference whether it listens to being called off. -/
theorem incremental_eq_fromScratch (config : GeneratorConfig) (history : List Request)
    (request : Request)
    (hcomplete : (((Pipeline.new config).after history).serve request).2.cancelled = false) :
    (((Pipeline.new config).serve request).2.cancelled = false ∧
      (((Pipeline.new config).after history).serve request).2.SameAnswer
        ((Pipeline.new config).serve request).2) ∧
    (((Pipeline.new config).runToEnd request.batch).2.cancelled = false ∧
      (((Pipeline.new config).after history).serve request).2.SameAnswer
        ((Pipeline.new config).runToEnd request.batch).2) := by
  have hreached := reached_after config history
  have hfresh : ((Pipeline.new config).serve request).2.cancelled = false := by
    -- whether a run comes to an end is a matter of the request
    rw [serve, cancelled_eq_any] at hcomplete ⊢
    exact hcomplete
  exact ⟨⟨hfresh, hreached.sound.sameAnswer (sound_new config) hreached.config_eq rfl hcomplete
    hfresh⟩, cancelled_runToEnd _ request.batch, hreached.sameAnswer hcomplete⟩

/-- A member is renamed and named back, and a run in between is called off. -/
theorem incremental_eq_fromScratch_of_reverted :
    (((Pipeline.new .standard).after [⟨.single "x" false, false⟩, ⟨.single "y" true, false⟩,
        ⟨.single "y" false, false⟩]).serve ⟨.single "x" false, false⟩).2.cancelled = false ∧
      (((Pipeline.new .standard).after [⟨.single "x" false, false⟩, ⟨.single "y" true, false⟩,
        ⟨.single "y" false, false⟩]).serve ⟨.single "x" false, false⟩).2.SameAnswer
          ((Pipeline.new .standard).runToEnd (.single "x" false)).2 := by
  have hcomplete := cancelled_single ((Pipeline.new .standard).after
    [⟨.single "x" false, false⟩, ⟨.single "y" true, false⟩, ⟨.single "y" false, false⟩])
    false "x" false
  exact ⟨hcomplete, (incremental_eq_fromScratch _ _ ⟨_, _⟩ hcomplete).2.2⟩

end Pipeline

end BuilderForge
