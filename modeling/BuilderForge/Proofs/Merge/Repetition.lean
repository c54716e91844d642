import BuilderForge.Merge
import BuilderForge.Proofs.Listing.Keys
import BuilderForge.Proofs.Listing.Order

/-!
# Repeated fragments

A front end may hand over a fragment of a builder more than once. The merge
unites members by name, and a fragment that was united before has no new
name to offer, so a repetition adds nothing wherever it stands
(`mergeFragments_firstBy`). As the fragments of a builder are sorted before
they are merged, what they are merged into is a matter of their set alone
(`mergeFragments_congr`).
-/

namespace BuilderForge

open Std

/-! ## First occurrences of repeated elements -/

section Listing

variable {α β κ : Type} [DecidableEq κ] {name : β → κ}

/-- An element that contributes nothing can be left out. -/
theorem flatMap_filter_ne [DecidableEq α] {f : α → List β} {a : α} (h : f a = []) (l : List α) :
    (l.filter (· ≠ a)).flatMap f = l.flatMap f := by
  induction l with
  | nil => rfl
  | cons b rest ih =>
    by_cases hb : b = a
    · subst hb
      rw [List.filter_cons_of_neg (by simp), List.flatMap_cons, h, List.nil_append, ih]
    · rw [List.filter_cons_of_pos (by simpa using hb), List.flatMap_cons, List.flatMap_cons, ih]

/-- **What an element contributes counts once**: all the names that its
repetitions could add are there already. -/
theorem firstBy_flatMap_firstBy [DecidableEq α] (f : α → List β) (l : List α) :
    firstBy name ((firstBy id l).flatMap f) = firstBy name (l.flatMap f) := by
  induction l with
  | nil => rfl
  | cons a rest ih =>
    -- after the first element, only names that it does not contribute count
    have hnames : ∀ m : List β,
        (firstBy name m).filter (fun b => name b ∉ (f a).map name) =
          firstBy name (m.filter fun b => name b ∉ (f a).map name) := fun m =>
      (firstBy_filter fun b _ c _ hbc => by rw [hbc]).symm
    have hself : (f a).filter (fun b => name b ∉ (f a).map name) = [] := by
      refine List.filter_eq_nil_iff.2 fun b hb => ?_
      have hmem : name b ∈ (f a).map name := List.mem_map_of_mem hb
      simpa using hmem
    rw [firstBy, List.flatMap_cons, List.flatMap_cons, firstBy_append, firstBy_append, ← ih,
      hnames, hnames, List.filter_flatMap, List.filter_flatMap]
    exact congrArg (fun m => firstBy name (f a) ++ firstBy name m)
      (flatMap_filter_ne (f := fun b => (f b).filter fun c => name c ∉ (f a).map name) hself _)

/-- Without a name to go by, the first occurrences are all the values. -/
theorem mem_firstBy_id [DecidableEq α] {l : List α} {a : α} : a ∈ firstBy id l ↔ a ∈ l := by
  have hnamed : (∃ b ∈ firstBy id l, id b = a) ↔ ∃ b ∈ l, id b = a := exists_mem_firstBy_iff
  simpa using hnamed

/-- A sorted list without its repetitions is the listing of its values. -/
theorem firstBy_id_eq_distinctAscending [DecidableEq α] [Ord α] [TransOrd α] [LawfulEqOrd α]
    {l : List α} (h : l.Pairwise fun a b => (compare a b).isLE) :
    firstBy id l = distinctAscending l := by
  have hascends : AscendsBy id (firstBy id l) :=
    ascendsBy_of_pairwise_isLE (List.Pairwise.sublist (firstBy_sublist id l) h)
      (nodup_keys_firstBy id l)
  exact hascends.eq_of_mem_iff (ascendsBy_distinctAscending l) fun a => by
    rw [mem_firstBy_id, mem_distinctAscending]

end Listing

/-! ## Merging with repetitions -/

/-- Repeated fragments contribute no members. -/
theorem unitedMembers_firstBy (target : String) (fragments : List BuilderSpec) :
    unitedMembers target (firstBy id fragments) = unitedMembers target fragments := by
  rw [unitedMembers, ← firstBy_filter fun spec _ other _ heq => by rw [show spec = other from heq],
    firstBy_flatMap_firstBy, unitedMembers]

/-- **Repeating a fragment makes no difference** to what is merged. -/
theorem mergeFragments_firstBy (fragments : List BuilderSpec) :
    mergeFragments (firstBy id fragments) = mergeFragments fragments := by
  have htargets : distinctAscending ((firstBy id fragments).map BuilderSpec.target) =
      distinctAscending (fragments.map BuilderSpec.target) := by
    refine distinctAscending_congr fun target => ?_
    simp only [List.mem_map, mem_firstBy_id]
  cases fragments with
  | nil => rfl
  | cons first rest =>
    have hunited := fun target => unitedMembers_firstBy target (first :: rest)
    rw [firstBy] at htargets hunited ⊢
    simp only [mergeFragments, htargets, hunited]
    cases distinctAscending ((first :: rest).map BuilderSpec.target) <;> rfl

/-- **Merging is a matter of the set of fragments**, if they are sorted. -/
theorem mergeFragments_congr {fragments others : List BuilderSpec}
    (h : fragments.Pairwise fun a b => (compare a b).isLE)
    (hothers : others.Pairwise fun a b => (compare a b).isLE)
    (hmem : ∀ spec, spec ∈ fragments ↔ spec ∈ others) :
    mergeFragments fragments = mergeFragments others := by
  rw [← mergeFragments_firstBy fragments, ← mergeFragments_firstBy others,
    firstBy_id_eq_distinctAscending h, firstBy_id_eq_distinctAscending hothers,
    distinctAscending_congr hmem]

end BuilderForge
