import BuilderForge.Proofs.Merge.Repetition
import BuilderForge.Proofs.Merge.Union

/-!
# What was merged before adds nothing

A merged specification has no name twice, so as a fragment of its own it
hands in all its members, and as a specification has one form, merging it
gives it back (`mergeFragments_singleton_iff`). A fragment that is there
already has no new name and no new target to add, wherever the sorting puts
another copy of it.
-/

namespace BuilderForge

/-- The only fragment of its target hands in its members, the first of each
name. -/
theorem unitedMembers_singleton (spec : BuilderSpec) :
    unitedMembers spec.target [spec] = firstBy Member.name spec.members := by
  rw [unitedMembers, List.filter_cons_of_pos (by simp), List.filter_nil, List.flatMap_singleton]

/-- **A fragment is merged into itself exactly if no name repeats in it.** -/
theorem mergeFragments_singleton_iff {spec : BuilderSpec} :
    mergeFragments [spec] = ⟨spec, []⟩ ↔ (spec.members.map Member.name).Nodup := by
  constructor
  · intro h
    have hnodup := nodup_names_mergeFragments [spec]
    rwa [h] at hnodup
  · intro h
    obtain ⟨target, others, htargets, hmerge⟩ := mergeFragments_cons spec []
    have hone : distinctAscending [spec.target] = [spec.target] :=
      AscendsBy.distinctAscending_eq (List.pairwise_singleton _ _)
    rw [List.map_singleton, hone, List.cons.injEq] at htargets
    obtain ⟨rfl, rfl⟩ := htargets
    rw [hmerge, unitedMembers_singleton, firstBy_eq_self h, BuilderSpec.ofMembers_members]

/-- **Merging absorbs what was merged before.** A single fragment is merged
into itself, without conflicts, exactly if no name repeats in it; what is
merged out of fragments is such a one; and another copy of one of the
fragments, sorted in with them, makes no difference. -/
theorem merge_absorbs (fragments : List BuilderSpec)
    (hsorted : fragments.Pairwise fun a b => (compare a b).isLE) :
    (∀ spec, mergeFragments [spec] = ⟨spec, []⟩ ↔ (spec.members.map Member.name).Nodup) ∧
      mergeFragments [(mergeFragments fragments).spec] = ⟨(mergeFragments fragments).spec, []⟩ ∧
      ∀ fragment ∈ fragments,
        mergeFragments (ascending (fragment :: fragments)) = mergeFragments fragments := by
  refine ⟨fun _ => mergeFragments_singleton_iff,
    mergeFragments_singleton_iff.2 (nodup_names_mergeFragments fragments),
    fun fragment hfragment => ?_⟩
  refine mergeFragments_congr (pairwise_ascendingBy id _) hsorted fun spec => ?_
  rw [mem_ascending, List.mem_cons]
  exact or_iff_right_of_imp fun heq => heq ▸ hfragment

/-- Scattered fragments, merged once more, and with another copy of the one
in which a name repeats. -/
theorem merge_absorbs_of_scattered :
    (scattered.Pairwise fun a b => (compare a b).isLE) ∧
      mergeFragments [(mergeFragments scattered).spec] = ⟨(mergeFragments scattered).spec, []⟩ ∧
      scattered.get ⟨1, by decide⟩ ∈ scattered ∧
      mergeFragments (ascending (scattered.get ⟨1, by decide⟩ :: scattered)) =
        mergeFragments scattered ∧
      mergeFragments [scattered.get ⟨1, by decide⟩] ≠ ⟨scattered.get ⟨1, by decide⟩, []⟩ := by
  have hsorted : scattered.Pairwise fun a b => (compare a b).isLE := by decide +kernel
  have hmem : scattered.get ⟨1, by decide⟩ ∈ scattered := List.get_mem _ _
  obtain ⟨hsingle, hagain, hcopy⟩ := merge_absorbs scattered hsorted
  exact ⟨hsorted, hagain, hmem, hcopy _ hmem, mt (hsingle _).1 (by decide)⟩

end BuilderForge
