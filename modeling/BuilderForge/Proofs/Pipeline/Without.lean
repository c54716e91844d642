import BuilderForge.Proofs.Pipeline.Census

/-!
# Batches without a builder

Builders are written one by one, so leaving one out makes no difference to
what writing the others comes to. It can make one to their identifiers:
these are given before it is known which builders can be written, so a
builder takes its identifier away from the others also if it has no artifact
to show for it. A builder that cannot be written is left out without a trace
if no other passed over its identifier (`Remembers.artifacts_without`), and
is missed where another one is given its identifier
(`Remembers.artifacts_without_ne`).

Of several declarations with one identity the first counts. Where a builder
shares an identity with another one, leaving it out brings a declaration to
light, so here its declarations have identities of their own
(`Batch.Separates`).
-/

namespace BuilderForge

open Std

/-- The builder that is declared. -/
def Declaration.builder (declaration : Declaration) : BuilderKey where
  scope := declaration.scope
  name := declaration.name

namespace Batch

/-- The batch without the declarations of a builder. -/
def without (batch : Batch) (key : BuilderKey) : Batch where
  catalog := batch.catalog
  declarations := batch.declarations.filter fun declaration => declaration.builder ≠ key

/-- The declarations of a builder share no identity with those of others. -/
def Separates (batch : Batch) (key : BuilderKey) : Prop :=
  ∀ declaration ∈ batch.declarations, ∀ other ∈ batch.declarations,
    declaration.id = other.id → (declaration.builder = key ↔ other.builder = key)

variable {batch : Batch} {key other : BuilderKey} {options : EmitOptions}

/-- What counts without a builder is what counted before, but for its own
declarations. -/
theorem firstBy_without (h : batch.Separates key) :
    firstBy Declaration.id (batch.without key).declarations =
      (firstBy Declaration.id batch.declarations).filter (·.builder ≠ key) :=
  firstBy_filter fun declaration hmem other hother hid =>
    decide_eq_decide.2 (not_congr (h declaration hmem other hother hid))

/-- Nothing calls the run off that did not before. -/
theorem any_cancels_without (h : batch.Separates key)
    (hquiet : batch.extractionJobs.any Job.cancels = false) :
    (batch.without key).extractionJobs.any Job.cancels = false := by
  refine List.any_eq_false.2 fun job hjob => ?_
  rw [extractionJobs, firstBy_without h] at hjob
  obtain ⟨declaration, hmem, rfl⟩ := List.mem_map.1 hjob
  exact List.any_eq_false.1 hquiet _
    (List.mem_map_of_mem (f := fun d : Declaration =>
      (⟨d.id, d, d.cancelsExtraction batch.catalog⟩ : Job DeclarationId Declaration))
      (List.mem_filter.1 hmem).1)

/-- Without a builder its specifications are missing. -/
theorem specs_without (h : batch.Separates key) :
    (batch.without key).specs = batch.specs.filter (·.key ≠ key) := by
  rw [specs_eq, specs_eq, firstBy_without h, List.filterMap_filter, List.filter_filterMap]
  refine List.filterMap_congr fun declaration _ => ?_
  change (if _ then declaration.extract batch.catalog else none) = _
  cases hspec : declaration.extract batch.catalog with
  | none => simp
  | some spec =>
    have hkey : spec.key = declaration.builder := Declaration.key_of_extract hspec
    rw [Option.filter_some, hkey]

/-- So it is missing among the builders. -/
theorem builders_without (h : batch.Separates key) :
    (batch.without key).builders = batch.builders.filter (· ≠ key) := by
  rw [builders, builders, specs_without h, ← distinctAscending_filter, List.filter_map]
  rfl

/-- And nobody else is. -/
theorem mem_builders_without (h : batch.Separates key) :
    other ∈ (batch.without key).builders ↔ other ∈ batch.builders ∧ other ≠ key := by
  rw [builders_without h, List.mem_filter, decide_eq_true_iff]

/-- The others are named among themselves. -/
theorem naming_without (h : batch.Separates key) :
    (batch.without key).naming = .ofKeys (batch.builders.filter (· ≠ key)) := by
  rw [naming, builders_without h]

/-- **Leaving a builder out makes no difference to writing the others.** -/
theorem outcome_without (h : batch.Separates key) (hne : other ≠ key) :
    (batch.without key).outcome options other = batch.outcome options other := by
  have hfragments : (batch.without key).fragments other = batch.fragments other := by
    rw [fragments, fragments, specs_without h, fragmentsOf, fragmentsOf, List.filter_filter]
    refine congrArg ascending (List.filter_congr fun spec _ => ?_)
    by_cases hspec : spec.key = other <;> simp [hspec, hne]
  rw [outcome, outcome, merged, merged, hfragments]

/-- Leaving out a builder of which nothing is made makes no difference. -/
theorem filterMap_filter_ne {γ : Type} {f : BuilderKey → Option γ} (hnone : f key = none)
    (keys : List BuilderKey) : (keys.filter (· ≠ key)).filterMap f = keys.filterMap f := by
  rw [List.filterMap_filter]
  refine List.filterMap_congr fun other _ => ?_
  by_cases hother : other = key <;> simp [hother, hnone]

/-- The texts of the artifacts do not depend on the identifiers. -/
theorem map_text_artifacts (batch : Batch) (options : EmitOptions) :
    (batch.builders.filterMap (batch.artifact? options)).map Artifact.text =
      batch.builders.filterMap fun key => (batch.outcome options key).text? := by
  rw [List.map_filterMap]
  refine List.filterMap_congr fun other hother => ?_
  obtain ⟨id, hid⟩ := exists_id hother
  simp only [artifact?, Resolution.artifact?, hid]
  cases (batch.outcome options other).text? <;> rfl

/-- Where a builder that is written keeps its identifier, it keeps its
artifact. -/
theorem artifact?_without (h : batch.Separates key) (hne : other ≠ key)
    (hid : ∀ text, batch.outcome options other = .generated text →
      (batch.without key).naming.id? other = batch.naming.id? other) :
    (batch.without key).artifact? options other = batch.artifact? options other := by
  simp only [artifact?, Resolution.artifact?, outcome_without h hne]
  cases houtcome : batch.outcome options other with
  | generated text => rw [hid text houtcome]
  | failed diagnostic => rfl

end Batch

/-- **What a run comes to without a builder** that has no artifact, compared
with the run that has the builder. -/
structure RunResult.Without (rest full : RunResult) (key : BuilderKey) : Prop where
  /-- It is run to the end as well. -/
  cancelled : rest.cancelled = false
  /-- The builder is not there. -/
  gone : rest.emission.value? key = none
  /-- Every other builder comes to the same text, or to the same error. -/
  outcome : ∀ other ≠ key, rest.emission.value? other = full.emission.value? other
  /-- The same texts are handed out, though maybe under other identifiers. -/
  texts : (rest.artifacts.map Artifact.text).Perm (full.artifacts.map Artifact.text)
  /-- The builders before it keep their identifiers. -/
  before : ∀ other, compare other key = .lt → rest.naming.id? other = full.naming.id? other
  /-- All the others keep theirs exactly if none of them passed over the one
  that the builder had. -/
  identifiers : (∀ other ≠ key, rest.naming.id? other = full.naming.id? other) ↔
    ∀ id, full.naming.id? key = some id → ∀ assignment ∈ full.naming.assignments,
      assignment.key ≠ key → ¬assignment.PassesOver id.text
  /-- If just those that have a text keep theirs, the artifacts are the
  same. -/
  artifacts : (∀ other ≠ key, ∀ text, full.emission.value? other = some (.generated text) →
    rest.naming.id? other = full.naming.id? other) → rest.artifacts = full.artifacts

namespace Pipeline

variable {pipeline : Pipeline} {last : Option RunResult} {batch : Batch} {flag : Bool}
variable {key : BuilderKey}

/-- Without a builder, a run to the end is run to the end. -/
theorem cancelled_without (hseparates : batch.Separates key)
    (hcomplete : (pipeline.run batch flag).2.cancelled = false) :
    (pipeline.run (batch.without key) flag).2.cancelled = false := by
  rw [cancelled_eq_any, Bool.or_eq_false_iff] at hcomplete ⊢
  exact ⟨hcomplete.1, Batch.any_cancels_without hseparates hcomplete.2⟩

namespace Remembers

section Separated

variable (h : pipeline.Remembers last) (hseparates : batch.Separates key)
variable (hcomplete : (pipeline.run batch flag).2.cancelled = false)

include h hseparates hcomplete

/-- The builder is not written any more. -/
theorem value?_emission_without_self :
    (pipeline.run (batch.without key) flag).2.emission.value? key = none := by
  refine Option.eq_none_iff_forall_ne_some.2 fun outcome hsome => ?_
  have hkey := ((h.value?_emission_eq_some_iff (cancelled_without hseparates hcomplete)).1 hsome).1
  exact ((Batch.mem_builders_without hseparates).1 hkey).2 rfl

/-- **The others come to the same texts and errors.** -/
theorem value?_emission_without {other : BuilderKey} (hne : other ≠ key) :
    (pipeline.run (batch.without key) flag).2.emission.value? other =
      (pipeline.run batch flag).2.emission.value? other := by
  refine Option.ext fun outcome => ?_
  rw [h.value?_emission_eq_some_iff (cancelled_without hseparates hcomplete),
    h.value?_emission_eq_some_iff hcomplete, Batch.mem_builders_without hseparates,
    Batch.outcome_without hseparates hne]
  simp only [ne_eq, hne, not_false_eq_true, and_true]

/-- **The same texts are handed out** if the builder has none. -/
theorem texts_without (hnone : (batch.outcome pipeline.config.options key).text? = none) :
    ((pipeline.run (batch.without key) flag).2.artifacts.map Artifact.text).Perm
      ((pipeline.run batch flag).2.artifacts.map Artifact.text) := by
  have htexts : (batch.without key).builders.filterMap
        (fun other => ((batch.without key).outcome pipeline.config.options other).text?) =
      batch.builders.filterMap
        fun other => (batch.outcome pipeline.config.options other).text? := by
    rw [Batch.builders_without hseparates, ← Batch.filterMap_filter_ne hnone batch.builders]
    refine List.filterMap_congr fun other hother => ?_
    rw [Batch.outcome_without hseparates (of_decide_eq_true (List.mem_filter.1 hother).2)]
  rw [h.artifacts_eq (cancelled_without hseparates hcomplete), h.artifacts_eq hcomplete]
  refine ((ascendingBy_perm _ _).map _).trans (.trans ?_ ((ascendingBy_perm _ _).map _).symm)
  rw [List.map_append, List.map_append, Batch.map_text_artifacts, Batch.map_text_artifacts, htexts]

/-- **And the same artifacts** if those that have a text keep their
identifiers. -/
theorem artifacts_without (hnone : (batch.outcome pipeline.config.options key).text? = none)
    (hids : ∀ other ≠ key, ∀ text,
      (pipeline.run batch flag).2.emission.value? other = some (.generated text) →
        (batch.without key).naming.id? other = batch.naming.id? other) :
    (pipeline.run (batch.without key) flag).2.artifacts =
      (pipeline.run batch flag).2.artifacts := by
  have hartifact : batch.artifact? pipeline.config.options key = none := by
    rw [Batch.artifact?, Resolution.artifact?, hnone]
    rfl
  rw [h.artifacts_eq (cancelled_without hseparates hcomplete), h.artifacts_eq hcomplete,
    Batch.builders_without hseparates, ← Batch.filterMap_filter_ne hartifact batch.builders]
  refine congrArg (fun written => ascendingBy Artifact.id (_ ++ written))
    (List.filterMap_congr fun other hother => ?_)
  obtain ⟨hmem, hne⟩ := List.mem_filter.1 hother
  refine Batch.artifact?_without hseparates (of_decide_eq_true hne) fun text htext => ?_
  exact hids other (of_decide_eq_true hne) text
    ((h.value?_emission_eq_some_iff hcomplete).2 ⟨hmem, htext⟩)

end Separated

/-- **One artifact more**: where the builder could not be written and another
one that can is given its identifier, the artifacts differ. -/
theorem artifacts_without_ne (h : pipeline.Remembers last)
    (hcomplete : (pipeline.run batch flag).2.cancelled = false)
    (hrest : (pipeline.run (batch.without key) flag).2.cancelled = false) {id : ArtifactId}
    (hid : batch.naming.id? key = some id)
    (hrejected : batch.accepts pipeline.config.options key = false) {other : BuilderKey}
    (hother : (batch.without key).naming.id? other = some id)
    (haccepted : (batch.without key).accepts pipeline.config.options other = true) :
    (pipeline.run (batch.without key) flag).2.artifacts ≠
      (pipeline.run batch flag).2.artifacts := by
  intro heq
  obtain ⟨artifact, hartifact, hartifactId⟩ := h.exists_mem_artifacts hrest hother haccepted
  rw [heq] at hartifact
  exact h.id_ne_of_mem_artifacts hcomplete hid hrejected hartifact hartifactId

end Remembers

/-- **Leaving out a builder that cannot be written** makes no difference to
what the others come to, and none to their identifiers unless one of them
passed over the one that the builder had. -/
theorem run_without_failing (config : GeneratorConfig) (history : List Request)
    (request : Request) {key : BuilderKey} {diagnostic : Diagnostic}
    (hseparates : request.batch.Separates key)
    (hcomplete : (((Pipeline.new config).after history).serve request).2.cancelled = false)
    (hfailed : (((Pipeline.new config).after history).serve request).2.emission.value? key =
      some (.failed diagnostic)) :
    (((Pipeline.new config).after history).serve
        ⟨request.batch.without key, request.flag⟩).2.Without
      (((Pipeline.new config).after history).serve request).2 key := by
  have hremembers := remembers_after config history
  have hrest := cancelled_without hseparates hcomplete
  obtain ⟨hkey, houtcome⟩ := (hremembers.value?_emission_eq_some_iff hcomplete).1 hfailed
  have hnone := congrArg EmitOutcome.text? houtcome
  obtain ⟨id, hid⟩ := Batch.exists_id hkey
  -- both runs name the builders of their batches
  have hnaming : (((Pipeline.new config).after history).serve
        ⟨request.batch.without key, request.flag⟩).2.naming = (request.batch.without key).naming :=
    hremembers.naming_eq hrest
  have hfull : (((Pipeline.new config).after history).serve request).2.naming =
      request.batch.naming := hremembers.naming_eq hcomplete
  exact
    { cancelled := hrest
      gone := hremembers.value?_emission_without_self hseparates hcomplete
      outcome := fun _ => hremembers.value?_emission_without hseparates hcomplete
      texts := hremembers.texts_without hseparates hcomplete hnone
      before := fun other hlt => by
        rw [hnaming, hfull, Batch.naming_without hseparates]
        exact Resolution.id?_filter_of_lt hlt
      identifiers := by
        rw [hnaming, hfull, Batch.naming_without hseparates, hid]
        simp only [Option.some.injEq, forall_eq']
        exact Resolution.id?_filter_eq_iff hid
      artifacts := fun hids => by
        rw [hnaming, hfull] at hids
        exact hremembers.artifacts_without hseparates hcomplete hnone hids }

/-- The batch with troubles, and the builder of it that nobody can write. -/
theorem run_without_failing_of_troubled :
    (Batch.troubled false).Separates .broken ∧
      ((Pipeline.new .standard).serve ⟨.troubled false, false⟩).2.cancelled = false ∧
      (∃ diagnostic, ((Pipeline.new .standard).serve ⟨.troubled false, false⟩).2.emission.value?
        .broken = some (.failed diagnostic)) ∧
      ((Pipeline.new .standard).serve ⟨(Batch.troubled false).without .broken, false⟩).2.Without
        ((Pipeline.new .standard).serve ⟨.troubled false, false⟩).2 .broken := by
  have hcomplete := cancelled_troubled (.new .standard) false false
  have hseparates : (Batch.troubled false).Separates .broken := by
    unfold Batch.Separates
    decide
  have hkey : .broken ∈ (Batch.troubled false).builders := by decide +kernel
  have hfailed := (remembers_new .standard).failed_of_rejected hcomplete hkey (by decide +kernel)
  refine ⟨hseparates, hcomplete, hfailed, ?_⟩
  obtain ⟨diagnostic, hdiagnostic⟩ := hfailed
  exact run_without_failing .standard [] ⟨_, _⟩ hseparates hcomplete hdiagnostic

/-- A batch where the builder that cannot be written shares an identity with
its rival and comes first. -/
def shadowing : Batch where
  catalog := (Batch.troubled false).catalog
  declarations :=
    [⟨⟨1⟩, "A.B", "Builder", .type 1, false⟩, ⟨⟨1⟩, "A::B", "Builder", .type 0, false⟩]

/-- A builder fails in the first run of a pipeline on a batch, and without it
the artifacts are others. -/
def Misses (batch : Batch) (key : BuilderKey) : Prop :=
  ((Pipeline.new .standard).serve ⟨batch, false⟩).2.cancelled = false ∧
    (∃ diagnostic, ((Pipeline.new .standard).serve ⟨batch, false⟩).2.emission.value? key =
      some (.failed diagnostic)) ∧
    ((Pipeline.new .standard).serve ⟨batch.without key, false⟩).2.artifacts ≠
      ((Pipeline.new .standard).serve ⟨batch, false⟩).2.artifacts

/-- Without the builder, its rival is given the identifier that it had. -/
theorem misses_broken : ∀ batch ∈ [Batch.troubled false, shadowing], Misses batch .broken := by
  intro batch hbatch
  have hquiet : ((false || batch.extractionJobs.any Job.cancels) = false) ∧
      (false || (batch.without .broken).extractionJobs.any Job.cancels) = false := by
    revert batch
    decide +kernel
  have hbroken : .broken ∈ batch.builders ∧ batch.accepts .standard .broken = false ∧
      batch.naming.id? .broken = some ⟨"A_B_Builder"⟩ := by
    revert batch
    decide +kernel
  have hrival : (batch.without .broken).accepts .standard .rival = true ∧
      (batch.without .broken).naming.id? .rival = some ⟨"A_B_Builder"⟩ := by
    revert batch
    decide +kernel
  have hremembers := remembers_new .standard
  have hcomplete := (cancelled_eq_any (.new .standard) batch false).trans hquiet.1
  have hrest := (cancelled_eq_any (.new .standard) (batch.without .broken) false).trans hquiet.2
  obtain ⟨hkey, hrejected, hid⟩ := hbroken
  obtain ⟨haccepted, hother⟩ := hrival
  exact ⟨hcomplete, hremembers.failed_of_rejected hcomplete hkey hrejected,
    hremembers.artifacts_without_ne hcomplete hrest hid hrejected hother haccepted⟩

/-- **A builder that cannot be written is missed** where its rival is named
after it, and where its rival does not count because of it. -/
theorem failing_builder_missed :
    Misses (.troubled false) .broken ∧ Misses shadowing .broken :=
  ⟨misses_broken _ List.mem_cons_self,
    misses_broken _ (List.mem_cons_of_mem _ List.mem_cons_self)⟩

end Pipeline

end BuilderForge
