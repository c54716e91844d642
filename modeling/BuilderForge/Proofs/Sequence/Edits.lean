import BuilderForge.Proofs.Sequence.Mixing
import Mathlib.Data.List.Induction
import Mathlib.Tactic.Ring

/-!
# Sequences with one element replaced

The hash of a sequence is a number written in places: what stands before the
last `n` elements counts `positionFactor ^ n` times (`contentHash_append`).
No place is lost, so an element that is replaced by one with another digest
always changes the hash (`contentHash_replace_iff`).

Sequences nest, and the word of an inner sequence is its hash, so the same
holds one level up, where the element that is replaced is a sequence in which
one element was replaced (`one_edit_changes_hash`).
-/

namespace BuilderForge

open scoped UInt64.CommRing

section Places

variable {α : Type} [Digestible α]

/-- **The hash of two sequences behind each other**: that of the first, moved
up by the length of the second, and that of the second. -/
theorem contentHash_append (first second : List α) :
    contentHash (first ++ second) =
      contentHash first * positionFactor ^ second.length + contentHash second := by
  induction second using List.reverseRecOn with
  | nil => rw [List.append_nil, List.length_nil, contentHash_nil, pow_zero, mul_one, add_zero]
  | append_singleton rest a ih =>
    rw [← List.append_assoc, contentHash_concat, contentHash_concat, ih, List.length_append,
      List.length_singleton]
    ring

/-- The first element counts as often as the elements behind it say. -/
theorem contentHash_cons (a : α) (items : List α) :
    contentHash (a :: items) = digest a * positionFactor ^ items.length + contentHash items := by
  have hsingle : contentHash [a] = digest a := by
    have hconcat := contentHash_concat [] a
    rwa [contentHash_nil, zero_mul, zero_add] at hconcat
  rw [← List.singleton_append, contentHash_append, hsingle]

/-- **Replacing one element changes the hash** exactly if it changes the
digest of the element. -/
theorem contentHash_replace_iff (before after : List α) (a b : α) :
    contentHash (before ++ a :: after) = contentHash (before ++ b :: after) ↔
      digest a = digest b := by
  rw [contentHash_append, contentHash_append, List.length_cons, List.length_cons,
    add_right_inj, contentHash_cons, contentHash_cons, add_left_inj, mul_positionFactor_pow_inj]

end Places

/-! ## Edits -/

/-- **One element is replaced**: two sequences of one length differ at exactly
one position, and the elements there are related by `R`. -/
structure DifferOnce {α : Type} (R : α → α → Prop) (first second : List α) : Prop where
  length_eq : first.length = second.length
  position : ∃! i : Nat, first[i]? ≠ second[i]?
  related : ∀ (i : Nat) (a b : α), first[i]? = some a → second[i]? = some b → a ≠ b → R a b

variable {α : Type} {R : α → α → Prop} {first second : List α}

/-- Around the position of the difference, the sequences are the same. -/
theorem DifferOnce.exists_split (h : DifferOnce R first second) :
    ∃ before a b after, first = before ++ a :: after ∧ second = before ++ b :: after ∧ R a b := by
  obtain ⟨i, hdiffer, honly⟩ := h.position
  have hsame : ∀ j, j ≠ i → first[j]? = second[j]? := fun j hj =>
    not_not.1 fun hne => hj (honly j hne)
  have hlength := h.length_eq
  have hi : i < first.length := by
    by_contra hge
    refine hdiffer ?_
    rw [List.getElem?_eq_none (by omega), List.getElem?_eq_none (by omega)]
  have hi' : i < second.length := hlength ▸ hi
  have hbefore : first.take i = second.take i := by
    refine List.ext_getElem? fun j => ?_
    by_cases hj : j < i
    · rw [List.getElem?_take_of_lt hj, List.getElem?_take_of_lt hj, hsame j (by omega)]
    · rw [List.getElem?_take_eq_none (by omega), List.getElem?_take_eq_none (by omega)]
  have hafter : first.drop (i + 1) = second.drop (i + 1) := by
    refine List.ext_getElem? fun j => ?_
    rw [List.getElem?_drop, List.getElem?_drop, hsame (i + 1 + j) (by omega)]
  have hfirst := List.getElem?_eq_getElem hi
  have hsecond := List.getElem?_eq_getElem hi'
  have hne : first[i] ≠ second[i] := by
    intro heq
    rw [hfirst, hsecond, heq] at hdiffer
    exact hdiffer rfl
  refine ⟨first.take i, first[i], second[i], first.drop (i + 1), ?_, ?_, ?_⟩
  · rw [List.getElem_cons_drop, List.take_append_drop]
  · rw [hbefore, hafter, List.getElem_cons_drop, List.take_append_drop]
  · exact h.related i _ _ hfirst hsecond hne

/-- And sequences that are the same around one position differ there only. -/
theorem DifferOnce.of_split (before after : List α) {a b : α} (hne : a ≠ b) (h : R a b) :
    DifferOnce R (before ++ a :: after) (before ++ b :: after) := by
  have hsame : ∀ i, i ≠ before.length →
      (before ++ a :: after)[i]? = (before ++ b :: after)[i]? := by
    intro i hi
    rcases Nat.lt_or_ge i before.length with hlt | hge
    · rw [List.getElem?_append_left hlt, List.getElem?_append_left hlt]
    · obtain ⟨k, hk⟩ : ∃ k, i - before.length = k + 1 := ⟨i - before.length - 1, by omega⟩
      rw [List.getElem?_append_right hge, List.getElem?_append_right hge, hk,
        List.getElem?_cons_succ, List.getElem?_cons_succ]
  refine ⟨by simp, ⟨before.length, by simpa using hne, fun i hi => ?_⟩, fun i c d hc hd hcd => ?_⟩
  · by_contra hother
    exact hi (hsame i hother)
  · obtain rfl : i = before.length := by
      by_contra hother
      rw [hsame i hother, hd] at hc
      exact hcd (Option.some.inj hc).symm
    simp only [List.getElem?_append_right (Nat.le_refl _), Nat.sub_self, List.getElem?_cons_zero,
      Option.some.injEq] at hc hd
    exact hc ▸ hd ▸ h

/-- **An edit that changes the word of an element changes the hash.** -/
theorem DifferOnce.contentHash_ne [Digestible α] (h : DifferOnce R first second)
    (hword : ∀ a b, R a b → Digestible.word a ≠ Digestible.word b) :
    contentHash first ≠ contentHash second := by
  obtain ⟨before, a, b, after, rfl, rfl, hrelated⟩ := h.exists_split
  rw [Ne, contentHash_replace_iff, digest_inj]
  exact hword a b hrelated

/-- **An edit of one element changes the hash**, and an edit of one element of
one inner sequence changes the hash of the sequence around it. -/
theorem one_edit_changes_hash :
    (∀ first second : List UInt64, DifferOnce (· ≠ ·) first second →
      contentHash first ≠ contentHash second) ∧
      ∀ first second : List (List UInt64), DifferOnce (DifferOnce (· ≠ ·)) first second →
        contentHash first ≠ contentHash second := by
  have hwords : ∀ first second : List UInt64, DifferOnce (· ≠ ·) first second →
      contentHash first ≠ contentHash second :=
    fun first second h => h.contentHash_ne fun a b hne => hne
  -- the word of an inner sequence is its hash
  exact ⟨hwords, fun first second h => h.contentHash_ne hwords⟩

/-- A digit is replaced, and a digit of the second of two rows. -/
theorem one_edit_changes_hash_of_digits :
    DifferOnce (· ≠ ·) ([7, 1, 2] : List UInt64) [7, 5, 2] ∧
      contentHash ([7, 1, 2] : List UInt64) ≠ contentHash ([7, 5, 2] : List UInt64) ∧
      DifferOnce (DifferOnce (· ≠ ·)) ([[3], [7, 1, 2]] : List (List UInt64)) [[3], [7, 5, 2]] ∧
      contentHash ([[3], [7, 1, 2]] : List (List UInt64)) ≠
        contentHash ([[3], [7, 5, 2]] : List (List UInt64)) := by
  have hne : (1 : UInt64) ≠ 5 := by decide
  have hdigit : DifferOnce (· ≠ ·) ([7, 1, 2] : List UInt64) [7, 5, 2] :=
    .of_split [7] [2] hne hne
  have hrow : DifferOnce (DifferOnce (· ≠ ·)) ([[3], [7, 1, 2]] : List (List UInt64))
      [[3], [7, 5, 2]] :=
    .of_split [[3]] [] (by decide) hdigit
  exact ⟨hdigit, one_edit_changes_hash.1 _ _ hdigit, hrow, one_edit_changes_hash.2 _ _ hrow⟩

end BuilderForge
