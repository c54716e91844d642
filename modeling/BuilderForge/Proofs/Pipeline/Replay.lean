import BuilderForge.Proofs.Pipeline.Artifacts
import BuilderForge.Proofs.Pipeline.Memory

/-!
# Hosts that follow the changes

A host need not look at all the artifacts of a run: it starts with none, and
after each run it erases what is gone and stores what is new or has another
text (`RunResult.applyTo`). It then holds what the pipeline remembers as
published, run by run, and so the artifacts of the last run that was not
called off (`replay_holds_artifacts`). What this rests on is that a run
reports exactly the differences (`applyTo_of_between`), and that nothing is
reported, and nothing published, by a run that is called off. When and by whom
it is called off makes no difference (`Reached.replay`).
-/

namespace BuilderForge

open Std

/-! ## Exact differences -/

namespace OutputChanges

variable {published : Published} {artifacts : List Artifact} {id : ArtifactId}

/-- New is what was not published. -/
theorem mem_added : id ∈ (between published artifacts).added ↔
    published[id]? = Option.none ∧ id ∈ artifacts.map Artifact.id := by
  simp only [between, List.mem_map, List.mem_filter, Option.isNone_iff_eq_none]
  constructor
  · rintro ⟨artifact, ⟨hmem, hnone⟩, rfl⟩
    exact ⟨hnone, artifact, hmem, rfl⟩
  · rintro ⟨hnone, artifact, hmem, rfl⟩
    exact ⟨artifact, ⟨hmem, hnone⟩, rfl⟩

/-- Gone is what was published and has no artifact. -/
theorem mem_removed : id ∈ (between published artifacts).removed ↔
    published[id]?.isSome ∧ id ∉ artifacts.map Artifact.id := by
  simp only [between, List.mem_filter, ExtTreeMap.mem_keys, ExtTreeMap.mem_iff_isSome_getElem?,
    decide_eq_true_eq]

/-- Changed is what was published with another text. -/
theorem mem_changed : id ∈ (between published artifacts).changed ↔
    ∃ artifact ∈ artifacts, artifact.id = id ∧
      ∃ old, published[id]? = some old ∧ old ≠ artifact.text := by
  simp only [between, List.mem_map, List.mem_filter, Option.any_eq_true, decide_eq_true_eq]
  constructor
  · rintro ⟨artifact, ⟨hmem, hold⟩, rfl⟩
    exact ⟨artifact, hmem, rfl, hold⟩
  · rintro ⟨artifact, hmem, rfl, hold⟩
    exact ⟨artifact, ⟨hmem, hold⟩, rfl⟩

end OutputChanges

/-! ## What a host does -/

namespace RunResult

/-- What a host stores after a run: for each identifier that is new or has
another text, the text that the run's artifacts give it. -/
def stored (run : RunResult) : List (ArtifactId × String) :=
  (run.changes.added ++ run.changes.changed).filterMap fun id =>
    (run.artifact? id).map fun artifact => (id, artifact.text)

/-- What a host holds after a run, given what it held before. -/
def applyTo (held : Published) (run : RunResult) : Published :=
  (run.changes.removed.foldl (fun t id => t.erase id) held).insertMany run.stored

variable {run : RunResult} {published : Published} {id : ArtifactId} {text : String}

/-- Where identifiers are distinct, the identifier finds the artifact. -/
theorem artifact?_eq_some_iff (h : (run.artifacts.map Artifact.id).Nodup) {artifact : Artifact} :
    run.artifact? id = some artifact ↔ artifact ∈ run.artifacts ∧ artifact.id = id :=
  find?_key_eq_some_iff h

/-- What is stored is what is reported, as the artifacts have it. -/
theorem mem_stored (h : (run.artifacts.map Artifact.id).Nodup) :
    (id, text) ∈ run.stored ↔
      (id ∈ run.changes.added ∨ id ∈ run.changes.changed) ∧ ⟨id, text⟩ ∈ run.artifacts := by
  simp only [stored, List.mem_filterMap, List.mem_append, Option.map_eq_some_iff,
    artifact?_eq_some_iff h, Prod.mk.injEq]
  constructor
  · rintro ⟨_, hreported, artifact, ⟨hmem, rfl⟩, rfl, rfl⟩
    exact ⟨hreported, hmem⟩
  · rintro ⟨hreported, hmem⟩
    exact ⟨id, hreported, _, ⟨hmem, rfl⟩, rfl, rfl⟩

/-- What a host holds after a run is what it has stored, and what it held if
that is neither gone nor stored over. -/
theorem getElem?_applyTo (h : (run.artifacts.map Artifact.id).Nodup) :
    (run.applyTo published)[id]? = some text ↔
      (id, text) ∈ run.stored ∨
        id ∉ run.stored.map Prod.fst ∧ id ∉ run.changes.removed ∧ published[id]? = some text := by
  have hagree : ∀ p ∈ run.stored, ∀ q ∈ run.stored, p.1 = q.1 → p.2 = q.2 := by
    rintro ⟨id, text⟩ hp ⟨_, other⟩ hq rfl
    have hartifact := ((mem_stored h).1 hp).2
    have hother := ((mem_stored h).1 hq).2
    exact congrArg Artifact.text (List.inj_on_of_nodup_map h hartifact hother rfl)
  rw [applyTo, getElem?_insertMany_of_agree hagree, getElem?_foldl_erase]

/-- A run without changes leaves a host as it was. -/
theorem applyTo_of_none (h : run.changes = .none) : run.applyTo published = published := by
  have hstored : run.stored = [] := by
    rw [stored, h]
    rfl
  rw [applyTo, hstored, h]
  exact ExtTreeMap.insertMany_nil

/-- What is stored after a run to the end are the artifacts that are not
held as they are. -/
theorem mem_stored_of_between (h : (run.artifacts.map Artifact.id).Nodup)
    (hchanges : run.changes = .between published run.artifacts) :
    (id, text) ∈ run.stored ↔ ⟨id, text⟩ ∈ run.artifacts ∧ published[id]? ≠ some text := by
  rw [mem_stored h, hchanges, OutputChanges.mem_added, OutputChanges.mem_changed]
  constructor
  · rintro ⟨⟨hnone, -⟩ | ⟨artifact, hartifact, hid, old, hold, hne⟩, hmem⟩
    · exact ⟨hmem, by simp [hnone]⟩
    · obtain rfl : artifact = ⟨id, text⟩ := List.inj_on_of_nodup_map h hartifact hmem hid
      exact ⟨hmem, by simpa [hold] using hne⟩
  · rintro ⟨hmem, hne⟩
    refine ⟨?_, hmem⟩
    cases hheld : published[id]? with
    | none => exact .inl ⟨rfl, List.mem_map_of_mem (f := Artifact.id) hmem⟩
    | some old => exact .inr ⟨_, hmem, rfl, old, rfl, fun heq => hne (by rw [hheld, heq])⟩

/-- **The reported differences are exact**: a host that holds what was
published before a run to the end holds the artifacts of the run after it. -/
theorem applyTo_of_between (h : (run.artifacts.map Artifact.id).Nodup)
    (hchanges : run.changes = .between published run.artifacts) :
    run.applyTo published = .ofArtifacts run.artifacts := by
  refine ExtTreeMap.ext_getElem? fun id => Option.ext fun text => ?_
  rw [getElem?_applyTo h, Published.getElem?_ofArtifacts h, mem_stored_of_between h hchanges]
  constructor
  · rintro (⟨hmem, -⟩ | ⟨hstored, hremoved, hheld⟩)
    · exact hmem
    · -- it is not gone, so it has an artifact, and one with another text would be stored
      have hid : id ∈ run.artifacts.map Artifact.id := by
        by_contra hid
        exact hremoved (hchanges ▸ OutputChanges.mem_removed.2 ⟨by simp [hheld], hid⟩)
      obtain ⟨artifact, hartifact, rfl⟩ := List.mem_map.1 hid
      by_contra hmem
      have htext : published[artifact.id]? ≠ some artifact.text := by
        intro heq
        obtain rfl := Option.some.inj (hheld.symm.trans heq)
        exact hmem hartifact
      exact hstored (List.mem_map_of_mem (f := Prod.fst)
        ((mem_stored_of_between h hchanges).2 ⟨hartifact, htext⟩))
  · intro hmem
    by_cases hheld : published[id]? = some text
    · refine .inr ⟨fun hstored => ?_, fun hremoved => ?_, hheld⟩
      · obtain ⟨⟨_, other⟩, hother, rfl⟩ := List.mem_map.1 hstored
        obtain ⟨hartifact, hne⟩ := (mem_stored_of_between h hchanges).1 hother
        have htext : other = text :=
          congrArg Artifact.text (List.inj_on_of_nodup_map h hartifact hmem rfl)
        exact hne (htext ▸ hheld)
      · rw [hchanges, OutputChanges.mem_removed] at hremoved
        exact hremoved.2 (List.mem_map_of_mem (f := Artifact.id) hmem)
    · exact .inl ⟨hmem, hheld⟩

/-- **The changes of a run fit** what was held before it: new identifiers
were not held, identifiers that are gone were, changed ones were held with
another text than the run gives them, and no identifier is reported twice
over. -/
structure ChangesFit (run : RunResult) (held : Published) : Prop where
  added : ∀ id ∈ run.changes.added, held[id]? = none ∧ ∃ artifact, run.artifact? id = some artifact
  removed : ∀ id ∈ run.changes.removed, held[id]?.isSome ∧ run.artifact? id = none
  changed : ∀ id ∈ run.changes.changed, ∃ old artifact,
    held[id]? = some old ∧ run.artifact? id = some artifact ∧ old ≠ artifact.text
  added_removed : run.changes.added.Disjoint run.changes.removed
  added_changed : run.changes.added.Disjoint run.changes.changed
  removed_changed : run.changes.removed.Disjoint run.changes.changed

/-- No changes fit anything. -/
theorem changesFit_of_none (h : run.changes = .none) : run.ChangesFit published := by
  constructor <;> simp [h, OutputChanges.none]

/-- The differences from what is held fit it. -/
theorem changesFit_of_between (h : (run.artifacts.map Artifact.id).Nodup)
    (hchanges : run.changes = .between published run.artifacts) : run.ChangesFit published := by
  have hadded : ∀ id ∈ run.changes.added,
      published[id]? = none ∧ ∃ artifact, run.artifact? id = some artifact := by
    intro id hid
    rw [hchanges, OutputChanges.mem_added] at hid
    obtain ⟨artifact, hartifact, rfl⟩ := List.mem_map.1 hid.2
    exact ⟨hid.1, artifact, (artifact?_eq_some_iff h).2 ⟨hartifact, rfl⟩⟩
  have hremoved : ∀ id ∈ run.changes.removed,
      published[id]?.isSome ∧ run.artifact? id = none := by
    intro id hid
    rw [hchanges, OutputChanges.mem_removed] at hid
    exact ⟨hid.1, find?_key_eq_none_iff.2 hid.2⟩
  have hchanged : ∀ id ∈ run.changes.changed, ∃ old artifact,
      published[id]? = some old ∧ run.artifact? id = some artifact ∧ old ≠ artifact.text := by
    intro id hid
    rw [hchanges, OutputChanges.mem_changed] at hid
    obtain ⟨artifact, hartifact, rfl, old, hold, hne⟩ := hid
    exact ⟨old, artifact, hold, (artifact?_eq_some_iff h).2 ⟨hartifact, rfl⟩, hne⟩
  refine ⟨hadded, hremoved, hchanged, fun id ha hr => ?_, fun id ha hc => ?_, fun id hr hc => ?_⟩
  · simpa [(hadded id ha).1] using (hremoved id hr).1
  · obtain ⟨old, -, hold, -⟩ := hchanged id hc
    simp [(hadded id ha).1] at hold
  · obtain ⟨-, artifact, -, hartifact, -⟩ := hchanged id hc
    simp [(hremoved id hr).2] at hartifact

end RunResult

/-! ## Hosts over histories -/

namespace Pipeline

variable (pipeline : Pipeline) (batch : Batch) (flag : Bool) (signals : Signals)

/-- **A host that holds what is published does so after the next run.** -/
theorem applyTo_published :
    (pipeline.runUnder batch flag signals).2.applyTo pipeline.published =
      (pipeline.runUnder batch flag signals).1.published := by
  cases hcancelled : (pipeline.runUnder batch flag signals).2.cancelled with
  | true =>
    rw [published_of_cancelled hcancelled]
    exact RunResult.applyTo_of_none (changes_of_cancelled hcancelled)
  | false =>
    rw [published_of_complete hcancelled]
    exact RunResult.applyTo_of_between (nodup_ids_runUnder pipeline batch flag signals)
      (changes_of_complete hcancelled)

/-- And the changes of the run fit what it holds. -/
theorem changesFit_published :
    (pipeline.runUnder batch flag signals).2.ChangesFit pipeline.published := by
  cases hcancelled : (pipeline.runUnder batch flag signals).2.cancelled with
  | true => exact RunResult.changesFit_of_none (changes_of_cancelled hcancelled)
  | false =>
    exact RunResult.changesFit_of_between (nodup_ids_runUnder pipeline batch flag signals)
      (changes_of_complete hcancelled)

namespace Reached

variable {config : GeneratorConfig} {pipeline : Pipeline} {results : List RunResult}

/-- **What is published** are the artifacts of the last run to the end. -/
theorem published_eq (h : Reached config pipeline results) :
    pipeline.published = publishedBy (lastComplete results) := by
  induction h with
  | new => rfl
  | @run pipeline results _ batch flag signals ih =>
    cases hcancelled : (pipeline.runUnder batch flag signals).2.cancelled with
    | true =>
      rw [published_of_cancelled hcancelled, lastComplete_concat_of_cancelled _ hcancelled, ih]
    | false =>
      rw [published_of_complete hcancelled, lastComplete_concat_of_complete _ hcancelled]
      rfl

/-- So a host that follows the changes holds what is published. -/
theorem held_eq (h : Reached config pipeline results) :
    results.foldl RunResult.applyTo ∅ = pipeline.published := by
  induction h with
  | new => rfl
  | run _ batch flag signals ih =>
    rw [List.foldl_concat, ih]
    exact applyTo_published _ batch flag signals

/-- No run has two artifacts with one identifier. -/
theorem nodup_ids (h : Reached config pipeline results) {run : RunResult} (hrun : run ∈ results) :
    (run.artifacts.map Artifact.id).Nodup := by
  induction h with
  | new => cases hrun
  | run _ batch flag signals ih =>
    rcases List.mem_append.1 hrun with hearlier | hlast
    · exact ih hearlier
    · obtain rfl := List.mem_singleton.1 hlast
      exact nodup_ids_runUnder _ batch flag signals

/-- **A host that follows the changes holds the artifacts** of the last run to
the end, whichever runs it called off and whenever, and what the next run
reports fits what it holds. -/
theorem replay (h : Reached config pipeline results) :
    (∀ id text, (results.foldl RunResult.applyTo ∅)[id]? = some text ↔
        ∃ run, lastComplete results = some run ∧ ⟨id, text⟩ ∈ run.artifacts) ∧
      ∀ batch flag signals, (pipeline.runUnder batch flag signals).2.ChangesFit
        (results.foldl RunResult.applyTo ∅) := by
  rw [h.held_eq]
  refine ⟨fun id text => ?_, fun batch flag signals =>
    changesFit_published _ batch flag signals⟩
  rw [h.published_eq]
  cases hlast : lastComplete results with
  | none => simp [publishedBy]
  | some run =>
    rw [publishedBy, Published.getElem?_ofArtifacts (h.nodup_ids (mem_of_lastComplete hlast))]
    simp

end Reached

/-- **A host that follows the changes holds the artifacts.** After every
history, a host that started with nothing holds exactly the artifacts of the
last run to the end, nothing if there was none, and the changes of the next
run, whichever it is, fit what the host holds. -/
theorem replay_holds_artifacts (config : GeneratorConfig) (history : List Request) :
    (∀ id text,
      (((Pipeline.new config).results history).foldl RunResult.applyTo ∅)[id]? = some text ↔
        ∃ run, lastComplete ((Pipeline.new config).results history) = some run ∧
          ⟨id, text⟩ ∈ run.artifacts) ∧
      ∀ request, (((Pipeline.new config).after history).serve request).2.ChangesFit
        (((Pipeline.new config).results history).foldl RunResult.applyTo ∅) := by
  obtain ⟨hheld, hfit⟩ := (reached_after config history).replay
  exact ⟨hheld, fun request => hfit request.batch request.flag .none⟩

end Pipeline

end BuilderForge
