import BuilderForge.Proofs.Pipeline.Outright

/-!
# Every builder is accounted for

A run to the end leaves no builder of its batch out and mentions none twice.
A builder that can be written has one artifact, under an identifier of its
own; a builder that cannot has one error; and there is one warning for each
builder whose fragments disagree and one for each that could not have its
base.

All this is a matter of the batch (`Batch.artifacts_accounted` and the lemmas
behind it), and a run to the end says of its batch what there is to say.
-/

namespace BuilderForge

open Std

/-! ## What there is to say about a builder -/

/-- What is said about a conflict is a warning. -/
theorem conflictFinding?_warns {output : StageOutput BuilderKey MergedBuilder}
    {diagnostic : Diagnostic} (h : conflictFinding? output = some diagnostic) :
    diagnostic.code = .conflictingTargets ∧ diagnostic.severity = .warning := by
  rw [conflictFinding?] at h
  split at h
  · obtain rfl := Option.some.inj h
    exact ⟨rfl, rfl⟩
  · cases h

namespace EmitOutcome

variable {options : EmitOptions} {spec : BuilderSpec}

/-- A builder has a text exactly if it can be written. -/
theorem text?_ofSpec {text : String} :
    (ofSpec options spec).text? = some text ↔ emitBuilder spec options = .ok text := by
  rw [ofSpec]
  cases emitBuilder spec options <;> simp [text?]

/-- And an error exactly if it cannot. -/
theorem diagnostic?_ofSpec {diagnostic : Diagnostic} :
    (ofSpec options spec).diagnostic? = some diagnostic ↔
      ∃ error, emitBuilder spec options = .error error ∧ diagnostic = failure spec error := by
  rw [ofSpec]
  cases emitBuilder spec options <;> simp [diagnostic?, eq_comm]

end EmitOutcome

namespace Batch

variable (batch : Batch) (options : EmitOptions) (key : BuilderKey)

/-- Whether fragments of a builder name different targets. -/
def disagrees : Bool :=
  decide (∃ spec ∈ batch.fragments key, ∃ other ∈ batch.fragments key, spec.target ≠ other.target)

/-- Whether a builder has another identifier than its base. -/
def displaces : Bool :=
  batch.naming.id? key ≠ some ⟨Naming.baseIdentifier key.scope key.name⟩

/-- Whether a builder can be written. -/
def accepts : Bool :=
  (emitBuilder (batch.merged key).spec options).isOk

/-- The artifact that a builder has: its text under its identifier. -/
structure ArtifactFor (artifact : Artifact) : Prop where
  id : batch.naming.id? key = some artifact.id
  text : emitBuilder (batch.merged key).spec options = .ok artifact.text

/-- The warning that fragments of a builder disagree. -/
structure ConflictFor (diagnostic : Diagnostic) : Prop where
  code : diagnostic.code = .conflictingTargets
  finding : conflictFinding? ⟨key, batch.merged key, .new⟩ = some diagnostic

/-- The warning that a builder could not have its base. -/
structure CollisionFor (diagnostic : Diagnostic) : Prop where
  code : diagnostic.code = .identifierCollision
  finding : ∃ id holder, batch.naming.id? key = some id ∧
    diagnostic = collisionFinding
      ⟨key, Naming.baseIdentifier key.scope key.name, id, some holder⟩ holder

/-- The error that a builder cannot be written. -/
structure FailureFor (diagnostic : Diagnostic) : Prop where
  code : diagnostic.code = .emissionFailed
  finding : ∃ error, emitBuilder (batch.merged key).spec options = .error error ∧
    diagnostic = EmitOutcome.failure (batch.merged key).spec error

variable {batch options key}

/-- A builder that is accepted has a text. -/
theorem accepts_eq_true_iff : batch.accepts options key = true ↔
    ∃ text, emitBuilder (batch.merged key).spec options = .ok text := by
  rw [accepts]
  cases emitBuilder (batch.merged key).spec options <;> simp [Except.isOk, Except.toBool]

/-- A builder that is not has an error. -/
theorem accepts_eq_false_iff : batch.accepts options key = false ↔
    ∃ error, emitBuilder (batch.merged key).spec options = .error error := by
  rw [accepts]
  cases emitBuilder (batch.merged key).spec options <;> simp [Except.isOk, Except.toBool]

/-- The artifact of a builder is its text under its identifier. -/
theorem artifact?_eq_some_iff {artifact : Artifact} :
    batch.artifact? options key = some artifact ↔ batch.ArtifactFor options key artifact := by
  obtain ⟨id, text⟩ := artifact
  simp only [artifact?, Resolution.artifact?, bind, Option.bind_eq_some_iff, outcome,
    EmitOutcome.text?_ofSpec, pure, Option.some.injEq, Artifact.mk.injEq]
  constructor
  · rintro ⟨_, htext, _, hid, rfl, rfl⟩
    exact ⟨hid, htext⟩
  · rintro ⟨hid, htext⟩
    exact ⟨text, htext, id, hid, rfl, rfl⟩

/-! ## One of each -/

/-- There is one artifact for each builder that can be written. -/
theorem artifacts_accounted : List.Forall₂ (batch.ArtifactFor options)
    (batch.builders.filter (batch.accepts options))
    (batch.builders.filterMap (batch.artifact? options)) := by
  refine forall₂_filter_filterMap (fun key hkey => ?_) fun _ _ _ => artifact?_eq_some_iff.1
  obtain ⟨id, hid⟩ := exists_id hkey
  rw [Bool.eq_iff_iff, Option.isSome_iff_exists, accepts_eq_true_iff]
  constructor
  · rintro ⟨artifact, hartifact⟩
    exact ⟨artifact.text, (artifact?_eq_some_iff.1 hartifact).text⟩
  · rintro ⟨text, hemit⟩
    exact ⟨⟨id, text⟩, artifact?_eq_some_iff.2 ⟨hid, hemit⟩⟩

/-- There is one warning for each builder whose fragments disagree. -/
theorem conflicts_accounted : List.Forall₂ batch.ConflictFor
    (batch.builders.filter batch.disagrees)
    (batch.builders.filterMap fun key => conflictFinding? ⟨key, batch.merged key, .new⟩) := by
  refine forall₂_filter_filterMap (fun key _ => ?_) fun key _ diagnostic hfinding => ?_
  · have hconflicts := hasConflicts_mergeFragments (batch.fragments key)
    rw [Bool.eq_iff_iff, disagrees, decide_eq_true_iff, ← hconflicts, conflictFinding?]
    cases hmerged : (mergeFragments (batch.fragments key)).hasConflicts <;> simp [merged, hmerged]
  · exact ⟨(conflictFinding?_warns hfinding).1, hfinding⟩

/-- There is one warning for each builder that could not have its base. -/
theorem collisions_accounted : List.Forall₂ batch.CollisionFor
    (batch.builders.filter batch.displaces)
    (batch.naming.collisions.map fun collision => collisionFinding collision.1 collision.2) := by
  have hkeys : batch.naming.assignments.map Naming.Assignment.key = batch.builders := by
    rw [naming, Resolution.ofKeys, Naming.map_key_assignAll,
      ascendsBy_builders.distinctAscending_eq]
  have hassigned : ∀ assignment ∈ batch.naming.assignments, ∃ taken,
      assignment = Naming.assign taken assignment.key := fun _ => Naming.exists_of_mem_assignAll
  -- builders and collisions are both read off the assignments
  rw [← hkeys, List.filter_map, Resolution.collisions, List.map_filterMap,
    List.forall₂_map_left_iff]
  refine forall₂_filter_filterMap (fun assignment hmem => ?_)
    fun assignment hmem diagnostic hfinding => ?_
  · obtain ⟨taken, heq⟩ := hassigned assignment hmem
    have hholder := Naming.isSome_holder_assign taken assignment.key
    rw [← heq] at hholder
    have hbase : assignment.base =
        Naming.baseIdentifier assignment.key.scope assignment.key.name := by
      rw [heq, Naming.base_assign, Naming.key_assign]
    rw [Bool.eq_iff_iff, Option.isSome_map, Option.isSome_map, hholder, hbase, Function.comp_apply,
      displaces, naming, Resolution.id?_of_mem_assignments hmem, decide_eq_true_iff]
    exact not_congr ⟨fun h => congrArg some (congrArg ArtifactId.mk h),
      fun h => congrArg ArtifactId.text (Option.some.inj h)⟩
  · obtain ⟨taken, heq⟩ := hassigned assignment hmem
    simp only [Option.map_map, Option.map_eq_some_iff, Function.comp_apply] at hfinding
    obtain ⟨holder, hholder, rfl⟩ := hfinding
    refine ⟨rfl, assignment.id, holder, Resolution.id?_of_mem_assignments hmem, ?_⟩
    rw [← hholder, ← Naming.base_assign taken, ← heq]

/-- There is one error for each builder that cannot be written. -/
theorem failures_accounted : List.Forall₂ (batch.FailureFor options)
    (batch.builders.filter fun key => !batch.accepts options key)
    (batch.builders.filterMap fun key => (batch.outcome options key).diagnostic?) := by
  refine forall₂_filter_filterMap (fun key _ => ?_) fun key _ diagnostic hfinding => ?_
  · rw [accepts, outcome, EmitOutcome.ofSpec]
    cases emitBuilder (batch.merged key).spec options <;> rfl
  · obtain ⟨error, herror, rfl⟩ := EmitOutcome.diagnostic?_ofSpec.1 hfinding
    exact ⟨rfl, error, herror, rfl⟩

/-- Of all that there is to say about a batch, only a builder that cannot be
written is an error. -/
theorem any_isError :
    (batch.builders.filterMap (fun key => conflictFinding? ⟨key, batch.merged key, .new⟩) ++
        batch.naming.collisions.map (fun collision => collisionFinding collision.1 collision.2) ++
        batch.builders.filterMap fun key => (batch.outcome options key).diagnostic?).any
      Diagnostic.isError ↔
    ∃ key ∈ batch.builders,
      ∃ error, emitBuilder (batch.merged key).spec options = .error error := by
  simp only [List.any_eq_true, List.mem_append, List.mem_filterMap, List.mem_map]
  constructor
  · rintro ⟨diagnostic, (⟨key, -, hconflict⟩ | ⟨collision, -, rfl⟩) | ⟨key, hkey, hfailure⟩, herror⟩
    · rw [Diagnostic.isError, (conflictFinding?_warns hconflict).2] at herror
      cases herror
    · cases herror
    · obtain ⟨error, hemit, -⟩ := EmitOutcome.diagnostic?_ofSpec.1 hfailure
      exact ⟨key, hkey, error, hemit⟩
  · rintro ⟨key, hkey, error, hemit⟩
    exact ⟨_, .inr ⟨key, hkey, EmitOutcome.diagnostic?_ofSpec.2 ⟨error, hemit, rfl⟩⟩, rfl⟩

end Batch

/-- **A run accounts for the builders of a batch.** -/
structure RunResult.AccountsFor (run : RunResult) (batch : Batch) (options : EmitOptions) :
    Prop where
  /-- What it extracts are the specifications of the batch. -/
  extracts : (run.extraction.live.map StageOutput.value).Perm batch.specs
  /-- The builders are those that have one of these, and they ascend. -/
  builders : AscendsBy id batch.builders ∧
    ∀ key, key ∈ batch.builders ↔ ∃ spec ∈ batch.specs, spec.key = key
  /-- The artifacts ascend, and no identifier is given twice. -/
  ascends : AscendsBy Artifact.id run.artifacts
  /-- They are the two that every run hands out, and one for each builder that
  can be written. -/
  artifacts : ∃ written, run.artifacts.Perm
      (⟨markerId, markerText options⟩ :: ⟨rulesId, supportText options⟩ :: written) ∧
    List.Forall₂ (batch.ArtifactFor options) (batch.builders.filter (batch.accepts options)) written
  /-- There is one warning for each builder whose fragments disagree, then one
  for each that could not have its base, and then one error for each that
  cannot be written, ascending by builder. -/
  diagnostics : ∃ conflicts collisions failures,
    run.diagnostics = conflicts ++ collisions ++ failures ∧
    List.Forall₂ batch.ConflictFor (batch.builders.filter batch.disagrees) conflicts ∧
    List.Forall₂ batch.CollisionFor (batch.builders.filter batch.displaces) collisions ∧
    List.Forall₂ (batch.FailureFor options)
      (batch.builders.filter fun key => !batch.accepts options key) failures
  /-- The run has errors exactly if some builder cannot be written. -/
  hasErrors : run.hasErrors ↔
    ∃ key ∈ batch.builders, ∃ error, emitBuilder (batch.merged key).spec options = .error error

namespace Pipeline

namespace Remembers

variable {pipeline : Pipeline} {last : Option RunResult} {batch : Batch} {flag : Bool}

/-- An artifact of a run to the end is one that every run hands out, or that
of a builder. -/
theorem mem_artifacts_iff (h : pipeline.Remembers last)
    (hcomplete : (pipeline.run batch flag).2.cancelled = false) {artifact : Artifact} :
    artifact ∈ (pipeline.run batch flag).2.artifacts ↔
      artifact ∈ supportArtifacts pipeline.config.options ∨
        ∃ key ∈ batch.builders, batch.ArtifactFor pipeline.config.options key artifact := by
  simp only [h.artifacts_eq hcomplete, mem_ascendingBy, List.mem_append, List.mem_filterMap,
    Batch.artifact?_eq_some_iff]

/-- A builder that can be written has an artifact. -/
theorem exists_mem_artifacts (h : pipeline.Remembers last)
    (hcomplete : (pipeline.run batch flag).2.cancelled = false) {key : BuilderKey} {id : ArtifactId}
    (hid : batch.naming.id? key = some id)
    (haccepted : batch.accepts pipeline.config.options key = true) :
    ∃ artifact ∈ (pipeline.run batch flag).2.artifacts, artifact.id = id := by
  obtain ⟨text, hemit⟩ := Batch.accepts_eq_true_iff.1 haccepted
  have hkey := Resolution.mem_of_id? hid
  exact ⟨⟨id, text⟩, (h.mem_artifacts_iff hcomplete).2 (.inr ⟨key, hkey, hid, hemit⟩), rfl⟩

/-- A builder that cannot be written fails. -/
theorem failed_of_rejected (h : pipeline.Remembers last)
    (hcomplete : (pipeline.run batch flag).2.cancelled = false) {key : BuilderKey}
    (hkey : key ∈ batch.builders)
    (hrejected : batch.accepts pipeline.config.options key = false) :
    ∃ diagnostic, (pipeline.run batch flag).2.emission.value? key = some (.failed diagnostic) := by
  obtain ⟨error, hemit⟩ := Batch.accepts_eq_false_iff.1 hrejected
  refine ⟨EmitOutcome.failure (batch.merged key).spec error,
    (h.value?_emission_eq_some_iff hcomplete).2 ⟨hkey, ?_⟩⟩
  rw [Batch.outcome, EmitOutcome.ofSpec, hemit]

/-- **A builder that cannot be written keeps its identifier from others**: no
artifact has it. -/
theorem id_ne_of_mem_artifacts (h : pipeline.Remembers last)
    (hcomplete : (pipeline.run batch flag).2.cancelled = false) {key : BuilderKey} {id : ArtifactId}
    (hid : batch.naming.id? key = some id)
    (hrejected : batch.accepts pipeline.config.options key = false) {artifact : Artifact}
    (hartifact : artifact ∈ (pipeline.run batch flag).2.artifacts) : artifact.id ≠ id := by
  rintro rfl
  rcases (h.mem_artifacts_iff hcomplete).1 hartifact with hsupport | ⟨other, -, hother⟩
  · exact Resolution.id?_not_reserved hid
      (List.mem_map_of_mem (f := fun artifact : Artifact => artifact.id.text) hsupport)
  · obtain rfl := Resolution.id?_injective hother.id hid
    obtain ⟨error, hemit⟩ := Batch.accepts_eq_false_iff.1 hrejected
    rw [hother.text] at hemit
    cases hemit

end Remembers

/-- **Every builder is accounted for exactly once** in a run to the end,
after every history. -/
theorem builders_accounted (config : GeneratorConfig) (history : List Request) (request : Request)
    (hcomplete : (((Pipeline.new config).after history).serve request).2.cancelled = false) :
    (((Pipeline.new config).after history).serve request).2.AccountsFor request.batch
      config.options := by
  have hremembers := remembers_after config history
  have hoptions : ((Pipeline.new config).after history).config.options = config.options :=
    congrArg GeneratorConfig.options (config_after (.new config) history)
  have hartifacts := hremembers.artifacts_eq hcomplete
  have hdiagnostics := hremembers.diagnostics_eq hcomplete
  rw [hoptions] at hartifacts hdiagnostics
  have hperm := hartifacts ▸ ascendingBy_perm Artifact.id
    (supportArtifacts config.options ++
      request.batch.builders.filterMap (request.batch.artifact? config.options))
  exact
    { extracts := specs_perm hcomplete
      builders := ⟨Batch.ascendsBy_builders, fun _ => Batch.mem_builders⟩
      ascends := by
        have hids := nodup_ids_runUnder ((Pipeline.new config).after history) request.batch
          request.flag .none
        rw [serve, hartifacts]
        exact ascendsBy_ascendingBy ((hperm.map Artifact.id).nodup_iff.1 hids)
      artifacts := ⟨_, hperm, Batch.artifacts_accounted⟩
      diagnostics := ⟨_, _, _, hdiagnostics, Batch.conflicts_accounted,
        Batch.collisions_accounted, Batch.failures_accounted⟩
      hasErrors := by
        rw [RunResult.hasErrors, serve, hdiagnostics, Batch.any_isError] }

/-- A batch with troubles is read to the end after a run that was called
off. -/
theorem builders_accounted_of_troubled :
    (((Pipeline.new .standard).after [⟨.troubled true, false⟩]).serve
        ⟨.troubled false, false⟩).2.cancelled = false ∧
      (((Pipeline.new .standard).after [⟨.troubled true, false⟩]).serve
        ⟨.troubled false, false⟩).2.AccountsFor (.troubled false) .standard := by
  have hcomplete := cancelled_troubled ((Pipeline.new .standard).after [⟨.troubled true, false⟩])
    false false
  exact ⟨hcomplete, builders_accounted .standard _ ⟨_, _⟩ hcomplete⟩

end Pipeline

end BuilderForge
