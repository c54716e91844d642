import BuilderForge.Proofs.Naming.Uniqueness
import BuilderForge.Proofs.Pipeline.Stages
import BuilderForge.Proofs.Stage.Table

/-!
# The artifacts of a run

Every artifact of a run has an identifier of its own: builders get theirs
apart from each other and from the support artifacts, and no builder is
emitted twice. So the identifier finds the artifact, and what a run
publishes is what it hands out.
-/

namespace BuilderForge

/-- The artifact of an emitted builder, if it has a text and an identifier. -/
def Resolution.artifact? (resolution : Resolution)
    (output : StageOutput BuilderKey EmitOutcome) : Option Artifact := do
  let text ← output.value.text?
  let id ← resolution.id? output.key
  return ⟨id, text⟩

/-- An artifact has the identifier of its builder. -/
theorem Resolution.id_of_artifact? {resolution : Resolution}
    {output : StageOutput BuilderKey EmitOutcome} {artifact : Artifact}
    (h : resolution.artifact? output = some artifact) :
    resolution.id? output.key = some artifact.id := by
  obtain ⟨text, -, h⟩ := Option.bind_eq_some_iff.1 h
  obtain ⟨id, hid, h⟩ := Option.bind_eq_some_iff.1 h
  obtain rfl := Option.some.inj h
  exact hid

section Distinct

variable {keys : List BuilderKey} {emitted : List (StageOutput BuilderKey EmitOutcome)}

/-- The artifacts of different builders have different identifiers. -/
theorem nodup_ids_emitted (h : (emitted.map StageOutput.key).Nodup) :
    ((emitted.filterMap (Resolution.ofKeys keys).artifact?).map Artifact.id).Nodup := by
  refine List.pairwise_map.2 (List.pairwise_filterMap.2 ((List.pairwise_map.1 h).imp ?_))
  intro output other hne artifact hartifact otherArtifact hother heq
  refine hne (Resolution.id?_injective (Resolution.id_of_artifact? hartifact) ?_)
  rw [Resolution.id_of_artifact? hother, heq]

/-- **No two artifacts share an identifier.** -/
theorem nodup_ids_artifactsOf (options : EmitOptions) (h : (emitted.map StageOutput.key).Nodup) :
    ((artifactsOf options (.ofKeys keys) emitted).map Artifact.id).Nodup := by
  change ((ascendingBy Artifact.id (supportArtifacts options ++
    emitted.filterMap (Resolution.ofKeys keys).artifact?)).map Artifact.id).Nodup
  rw [((ascendingBy_perm _ _).map _).nodup_iff, List.map_append, List.nodup_append]
  refine ⟨?_, nodup_ids_emitted h, ?_⟩
  · change [markerId, rulesId].Nodup
    decide
  · rintro id hsupport _ hemitted rfl
    obtain ⟨artifact, hartifact, rfl⟩ := List.mem_map.1 hemitted
    obtain ⟨output, -, hsome⟩ := List.mem_filterMap.1 hartifact
    refine Resolution.id?_not_reserved (Resolution.id_of_artifact? hsome) ?_
    exact List.mem_map_of_mem (f := ArtifactId.text) hsupport

end Distinct

/-- **Every artifact of a run has an identifier of its own**, also if the run
is called off. -/
theorem Pipeline.nodup_ids_runUnder (pipeline : Pipeline) (batch : Batch) (flag : Bool)
    (signals : Signals) :
    ((pipeline.runUnder batch flag signals).2.artifacts.map Artifact.id).Nodup := by
  have hemission : AscendsBy StageOutput.key
      (pipeline.runUnder batch flag signals).2.emission.live :=
    ascendsBy_runEmission _ (ascendsBy_runMerge _ _ _) _
  exact nodup_ids_artifactsOf _ hemission.nodup_keys

/-- **What is published is what was handed out.** -/
theorem Published.getElem?_ofArtifacts {artifacts : List Artifact}
    (h : (artifacts.map Artifact.id).Nodup) {id : ArtifactId} {text : String} :
    (Published.ofArtifacts artifacts)[id]? = some text ↔ ⟨id, text⟩ ∈ artifacts := by
  have hagree : ∀ p ∈ artifacts.map fun artifact => (artifact.id, artifact.text),
      ∀ q ∈ artifacts.map fun artifact => (artifact.id, artifact.text), p.1 = q.1 → p.2 = q.2 := by
    simp only [List.mem_map]
    rintro _ ⟨artifact, hartifact, rfl⟩ _ ⟨other, hother, rfl⟩ hid
    exact congrArg Artifact.text (List.inj_on_of_nodup_map h hartifact hother hid)
  rw [ofArtifacts, getElem?_insertMany_of_agree hagree]
  simp only [List.mem_map, Prod.mk.injEq, Std.ExtTreeMap.getElem?_empty, reduceCtorEq, and_false,
    or_false]
  constructor
  · rintro ⟨artifact, hartifact, rfl, rfl⟩
    exact hartifact
  · intro hmem
    exact ⟨_, hmem, rfl, rfl⟩

end BuilderForge
