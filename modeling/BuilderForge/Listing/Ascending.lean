import Std.Data.ExtTreeSet

/-!
# Lists in ascending order

Outputs are handed out in the order of their values, never in the order of
their discovery. `ascendingBy` sorts by a key and keeps elements of equal
key in the order they came; `distinctAscending` lists a set of values, each
once. Both depend on the lawful order of the values alone.
-/

namespace BuilderForge

open Std

variable {α κ : Type}

/-- `l` sorted by `key`; elements with equal keys stay in their order. -/
def ascendingBy [Ord κ] (key : α → κ) (l : List α) : List α :=
  l.mergeSort fun a b => (compare (key a) (key b)).isLE

/-- `l` sorted by the order of its elements. -/
def ascending [Ord α] (l : List α) : List α :=
  ascendingBy id l

/-- The values of `l`, each once, in ascending order. -/
def distinctAscending [Ord α] [TransOrd α] (l : List α) : List α :=
  (ExtTreeSet.ofList l compare).toList

/-- Sorting only rearranges. -/
theorem ascendingBy_perm [Ord κ] (key : α → κ) (l : List α) : (ascendingBy key l).Perm l :=
  List.mergeSort_perm l _

@[simp]
theorem mem_ascendingBy [Ord κ] {key : α → κ} {l : List α} {a : α} :
    a ∈ ascendingBy key l ↔ a ∈ l :=
  (ascendingBy_perm key l).mem_iff

@[simp]
theorem mem_ascending [Ord α] {l : List α} {a : α} : a ∈ ascending l ↔ a ∈ l :=
  mem_ascendingBy

/-- A sorted list never descends. -/
theorem pairwise_ascendingBy [Ord κ] [TransOrd κ] (key : α → κ) (l : List α) :
    (ascendingBy key l).Pairwise fun a b => (compare (key a) (key b)).isLE := by
  unfold ascendingBy
  apply List.pairwise_mergeSort
  · exact fun _ _ _ hab hbc => TransOrd.isLE_trans hab hbc
  · intro a b
    have h : compare (key b) (key a) = (compare (key a) (key b)).swap := OrientedOrd.eq_swap
    rw [h]
    cases compare (key a) (key b) <;> rfl

/-- The values of the list are those of the given one. -/
@[simp]
theorem mem_distinctAscending [Ord α] [TransOrd α] [LawfulEqOrd α] [BEq α] [LawfulBEq α]
    {l : List α} {a : α} : a ∈ distinctAscending l ↔ a ∈ l := by
  simp [distinctAscending, ExtTreeSet.mem_toList, ExtTreeSet.mem_ofList]

/-- Each value is listed once, and they ascend. -/
theorem pairwise_distinctAscending [Ord α] [TransOrd α] (l : List α) :
    (distinctAscending l).Pairwise fun a b => compare a b = .lt :=
  ExtTreeSet.ordered_toList

end BuilderForge
