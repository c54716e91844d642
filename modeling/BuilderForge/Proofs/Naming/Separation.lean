import BuilderForge.Proofs.Naming.Fewer
import Mathlib.Data.List.Perm.Subperm

/-!
# Every builder has an identifier of its own

However many builders there are and whatever they are called, each of them
gets one identifier, no two get the same, and none gets that of a support
artifact (`identifiers_unique`). The search for a free candidate cannot be
long: no candidate is tried twice, so with every one that is refused another
text must be taken (`FirstFree.le_length`). And as the builders are named in
the order of their keys, the identifiers depend on nothing but which
builders there are.
-/

namespace BuilderForge

open Std

namespace Naming

/-! ## The length of the search -/

/-- **As many candidates can be refused as texts are taken**, and no more. -/
theorem FirstFree.le_length {base : String} {texts : List String} {i : Nat}
    (h : FirstFree base texts i) : i ≤ texts.length := by
  have hnodup : ((List.range i).map (candidate base)).Nodup :=
    List.nodup_range.map (candidate_injective base)
  have hsub : (List.range i).map (candidate base) ⊆ texts := by
    intro text htext
    obtain ⟨j, hj, rfl⟩ := List.mem_map.1 htext
    exact h.taken j (List.mem_range.1 hj)
  have hle := (hnodup.subperm hsub).length_le
  rwa [List.length_map, List.length_range] at hle

/-- So the builders of a list find theirs among the first candidates. -/
theorem exists_candidate_assignAll {taken : List (String × Holder)} {keys : List BuilderKey}
    {assignment : Assignment} (h : assignment ∈ assignAll taken keys) :
    ∃ i < taken.length + keys.length, assignment.id.text =
      candidate (baseIdentifier assignment.key.scope assignment.key.name) i := by
  induction keys generalizing taken with
  | nil => cases h
  | cons key rest ih =>
    rw [List.length_cons]
    rcases List.mem_cons.1 h with rfl | h
    · obtain ⟨i, hid, hfirst⟩ := exists_firstFree_assign taken key
      have hle := hfirst.le_length
      rw [List.length_map] at hle
      rw [base_assign] at hid
      exact ⟨i, by omega, by rw [hid, key_assign]⟩
    · obtain ⟨i, hlt, hid⟩ := ih h
      rw [List.length_cons] at hlt
      exact ⟨i, by omega, hid⟩

end Naming

namespace Resolution

open Naming

/-- **A resolution names the builders of a list.** -/
structure Names (resolution : Resolution) (keys : List BuilderKey) : Prop where
  /-- No builder is named twice, however often it is listed. -/
  once : (resolution.assignments.map Assignment.key).Nodup
  /-- The identifier of a builder is the one that it was assigned. -/
  assigned : ∀ assignment ∈ resolution.assignments,
    resolution.id? assignment.key = some assignment.id
  /-- Those that are listed have an identifier, and no others. -/
  named : ∀ key, key ∈ keys ↔ ∃ id, resolution.id? key = some id
  /-- Different builders have different identifiers. -/
  apart : ∀ key other id, resolution.id? key = some id → resolution.id? other = some id →
    key = other
  /-- None of them is that of a support artifact. -/
  unreserved : ∀ key id, resolution.id? key = some id → id ≠ markerId ∧ id ≠ rulesId
  /-- The search for an identifier ends: a builder has its base, or a number
  behind it that is at most two more than there are builders. So the number
  stays below `2 ^ 31` if there are fewer than `2 ^ 31 - 2` builders. -/
  bounded : ∀ key id, resolution.id? key = some id →
    id.text = baseIdentifier key.scope key.name ∨
      ∃ n, 2 ≤ n ∧ n ≤ (distinctAscending keys).length + 2 ∧
        id.text = numbered (baseIdentifier key.scope key.name) n

/-- **The number behind a base is small.** -/
theorem base_or_numbered {keys : List BuilderKey} {key : BuilderKey} {id : ArtifactId}
    (h : (ofKeys keys).id? key = some id) :
    id.text = baseIdentifier key.scope key.name ∨
      ∃ n, 2 ≤ n ∧ n ≤ (distinctAscending keys).length + 2 ∧
        id.text = numbered (baseIdentifier key.scope key.name) n := by
  obtain ⟨assignment, hmem, rfl, rfl⟩ := exists_of_id? h
  obtain ⟨i, hlt, hid⟩ := exists_candidate_assignAll hmem
  have hreserved : reserved.length = 2 := rfl
  cases i with
  | zero => exact .inl hid
  | succ i => exact .inr ⟨i + 2, by omega, by omega, hid⟩

/-- **Every builder has an identifier of its own**, and which one it has is a
matter of the set of builders alone. -/
theorem identifiers_unique (keys : List BuilderKey) :
    (ofKeys keys).Names keys ∧
      ∀ others, (∀ key, key ∈ others ↔ key ∈ keys) → ofKeys others = ofKeys keys := by
  refine ⟨?_, fun others hothers => ?_⟩
  · exact
      { once := by
          rw [ofKeys, map_key_assignAll]
          exact (ascendsBy_distinctAscending keys).nodup
        assigned := fun _ => id?_of_mem_assignments
        named := fun _ => exists_id?_iff.symm
        apart := fun _ _ _ => id?_injective
        unreserved := fun key id hid => by
          have hnot := id?_not_reserved hid
          constructor
          · rintro rfl
            exact hnot (by decide)
          · rintro rfl
            exact hnot (by decide)
        bounded := fun _ _ => base_or_numbered }
  · rw [ofKeys, ofKeys, distinctAscending_congr hothers]

/-- Builders that are in each other's way: two have one base, one has the
base with a number for its name, and one is called like a support artifact. -/
def rivals : List BuilderKey :=
  [⟨"A.B", "Builder"⟩, ⟨"", "A_B_Builder_2"⟩, ⟨"A::B", "Builder"⟩, ⟨"", "builder_marker"⟩]

/-- The same builders in another order, some of them twice. -/
theorem identifiers_unique_of_rivals :
    (∀ key, key ∈ rivals.reverse ++ rivals ↔ key ∈ rivals) ∧
      ofKeys (rivals.reverse ++ rivals) = ofKeys rivals := by
  have hsame : ∀ key, key ∈ rivals.reverse ++ rivals ↔ key ∈ rivals := fun key => by simp
  exact ⟨hsame, (identifiers_unique rivals).2 _ hsame⟩

end Resolution

end BuilderForge
