import BuilderForge.Proofs.Pipeline.FromScratch

/-!
# Runs that a host calls off midway

A run that is called off before or while the declarations are read leaves no
trace in the merge and the emission. One that a host calls off later does: what
it has merged and emitted by then stays in the memos. That is work saved and
nothing else. What it hands out is a part of what a new pipeline hands out in
a run to the end (`Reached.part_of_answer`), and the next run does none of it
over again (`disjoint_merged`, `disjoint_emitted`).
-/

namespace BuilderForge

namespace Pipeline

/-- **What is handed out midway is a part of the answer.** However a host came
by a pipeline, a run that has read all declarations merges builders as a run
to the end of a new pipeline does, and emits those that it has merged as that
run does, in the same order and leaving out what it did not come to. -/
theorem Reached.part_of_answer {config : GeneratorConfig} {pipeline : Pipeline}
    {results : List RunResult} (h : Reached config pipeline results) {batch : Batch} {flag : Bool}
    {signals : Signals}
    (hread : (pipeline.runUnder batch flag signals).2.extraction.complete = true) :
    (pipeline.runUnder batch flag signals).2.merge.livePairs.Sublist
        ((Pipeline.new config).runToEnd batch).2.merge.livePairs ∧
      (pipeline.runUnder batch flag signals).2.emission.livePairs.Sublist
        ((Pipeline.new config).runToEnd batch).2.emission.livePairs := by
  obtain ⟨hfirst, hsecond, hthird⟩ :=
    complete_of_not_cancelled (cancelled_runToEnd (.new config) batch)
  have hextraction : (pipeline.runUnder batch flag signals).2.extraction.livePairs =
      ((Pipeline.new config).runToEnd batch).2.extraction.livePairs :=
    livePairs_extraction_eq batch.extracted_undisturbed.symm hread hfirst
  have hmerged : ((Pipeline.new config).runToEnd batch).2.merge.livePairs =
      mergedPairs (((Pipeline.new config).runToEnd batch).2.extraction.livePairs.map Prod.snd) :=
    (sound_new config).merge_of_complete hsecond
  have hemitted : ((Pipeline.new config).runToEnd batch).2.emission.livePairs =
      emittedPairs config.options ((Pipeline.new config).runToEnd batch).2.merge.livePairs :=
    (sound_new config).emission_of_complete (ascendsBy_runMerge _ _ _) hthird
  have hmerge : (pipeline.runUnder batch flag signals).2.merge.livePairs.Sublist
      ((Pipeline.new config).runToEnd batch).2.merge.livePairs := by
    rw [hmerged, ← hextraction]
    exact h.sound.merge_sublist
  refine ⟨hmerge, ?_⟩
  have hemission : (pipeline.runUnder batch flag signals).2.emission.livePairs.Sublist
      (emittedPairs pipeline.config.options
        (pipeline.runUnder batch flag signals).2.merge.livePairs) :=
    h.sound.emission_sublist (ascendsBy_runMerge _ _ _)
  rw [hemitted, ← h.config_eq]
  exact hemission.trans (hmerge.map _)

section Resumption

variable (pipeline : Pipeline) (batch : Batch) (flag : Bool) (signals : Signals)

/-- **What a run has merged, the next run does not merge over again**, on
whatever batch and wherever either of them is called off. -/
theorem disjoint_merged (extraction : StageReport DeclarationId BuilderSpec)
    (signal : Signal BuilderKey) : List.Disjoint
      (pipeline.runMerge (pipeline.runUnder batch flag signals).2.extraction signals.merge).computed
      ((pipeline.runUnder batch flag signals).1.runMerge extraction signal).computed :=
  MemoStage.disjoint_computed_serve pipeline.merge ⟨_, _, _⟩ ⟨_, _, _⟩

/-- **Nor does it write over again** what the run has written. -/
theorem disjoint_emitted (merge : StageReport BuilderKey MergedBuilder)
    (signal : Signal BuilderKey) : List.Disjoint
      (pipeline.runEmission (pipeline.runUnder batch flag signals).2.merge
        signals.emission).computed
      ((pipeline.runUnder batch flag signals).1.runEmission merge signal).computed :=
  MemoStage.disjoint_computed_serve pipeline.emission ⟨_, _, _⟩ ⟨_, _, _⟩

end Resumption

/-- A first run is called off over its one builder. The builder is merged and
not emitted, and a run that follows has nothing to merge. -/
example :
    let halted := (Pipeline.new .standard).runUnder (.single "z" false) false
      ⟨.during ⟨"app", "PointBuilder"⟩, .never⟩
    halted.2.cancelled = true ∧ halted.2.merge.misses = 1 ∧ halted.2.emission.live = [] ∧
      (halted.1.run (.single "z" false) false).2.merge.misses = 0 := by
  decide +kernel

end Pipeline

end BuilderForge
