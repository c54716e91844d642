import BuilderForge.Listing.Ascending
import Mathlib.Data.List.Forall2

/-!
# Sorting is stable

Sorting keeps elements of equal key in the order they came, so what one does
to a list before it is sorted, one can as well do afterwards: leave elements
out (`ascendingBy_filter`), or answer them one by one
(`forall₂_ascendingBy`). Neither needs the keys to be distinct.
-/

namespace BuilderForge

open Std

variable {α β κ : Type} [Ord κ]

/-- What is made of elements under their keys is sorted as they are. -/
theorem map_ascendingBy {f : α → β} {key : α → κ} {name : β → κ} {l : List α}
    (h : ∀ a ∈ l, name (f a) = key a) :
    (ascendingBy key l).map f = ascendingBy name (l.map f) :=
  List.map_mergeSort fun a ha b hb => by rw [h a ha, h b hb]

/-- **One answer to each element, sorted**: the answers come in the order of
the elements if they bear their keys. -/
theorem forall₂_ascendingBy {R : α → β → Prop} {key : α → κ} {name : β → κ} {l : List α}
    {m : List β} (h : List.Forall₂ R l m) (hkey : ∀ a b, R a b → name b = key a) :
    List.Forall₂ R (ascendingBy key l) (ascendingBy name m) := by
  obtain ⟨hlength, hR⟩ := List.forall₂_iff_zip.1 h
  -- the pairs are sorted once, and both lists are read off them
  have hleft : (ascendingBy (fun pair => key pair.1) (l.zip m)).map Prod.fst =
      ascendingBy key l := by
    rw [map_ascendingBy fun _ _ => rfl, List.map_fst_zip (Nat.le_of_eq hlength)]
  have hright : (ascendingBy (fun pair => key pair.1) (l.zip m)).map Prod.snd =
      ascendingBy name m := by
    rw [map_ascendingBy fun _ hpair => hkey _ _ (hR hpair),
      List.map_snd_zip (Nat.le_of_eq hlength.symm)]
  rw [← hleft, ← hright, List.forall₂_map_left_iff, List.forall₂_map_right_iff,
    List.forall₂_same]
  exact fun pair hpair => hR (mem_ascendingBy.1 hpair)

variable [TransOrd κ] {key : α → κ}

/-- **Where a first element goes**: before the elements whose keys are not
smaller, the equal ones among them. -/
theorem ascendingBy_cons (key : α → κ) (a : α) (l : List α) : ∃ before after,
    ascendingBy key (a :: l) = before ++ a :: after ∧
    ascendingBy key l = before ++ after ∧
    (∀ b ∈ before, (compare (key a) (key b)).isLE = false) ∧
    ∀ b ∈ after, (compare (key a) (key b)).isLE = true := by
  have htrans : ∀ a b c : α, (compare (key a) (key b)).isLE → (compare (key b) (key c)).isLE →
      (compare (key a) (key c)).isLE := fun _ _ _ => TransOrd.isLE_trans
  have htotal : ∀ a b : α, (compare (key a) (key b)).isLE || (compare (key b) (key a)).isLE := by
    intro a b
    rw [OrientedOrd.eq_swap (a := key b)]
    cases compare (key a) (key b) <;> rfl
  obtain ⟨before, after, hcons, hrest, hbefore⟩ := List.mergeSort_cons htrans htotal a l
  have hsorted := pairwise_ascendingBy key (a :: l)
  rw [ascendingBy, hcons, List.pairwise_append, List.pairwise_cons] at hsorted
  exact ⟨before, after, hcons, hrest, fun b hb => by simpa using hbefore b hb, hsorted.2.1.1⟩

/-- A list is split in one way only into elements that fail a test and
elements that pass it. -/
theorem eq_of_append_eq {p : α → Bool} {l₁ l₂ m₁ m₂ : List α} (h : l₁ ++ l₂ = m₁ ++ m₂)
    (hl₁ : ∀ b ∈ l₁, p b = false) (hl₂ : ∀ b ∈ l₂, p b = true)
    (hm₁ : ∀ b ∈ m₁, p b = false) (hm₂ : ∀ b ∈ m₂, p b = true) : l₁ = m₁ ∧ l₂ = m₂ := by
  have hfilter : ∀ {k₁ k₂ : List α}, (∀ b ∈ k₁, p b = false) → (∀ b ∈ k₂, p b = true) →
      (k₁ ++ k₂).filter p = k₂ := fun {k₁ k₂} h₁ h₂ => by
    rw [List.filter_append, List.filter_eq_nil_iff.2 fun b hb => by simp [h₁ b hb],
      List.nil_append, List.filter_eq_self.2 h₂]
  have hsecond : l₂ = m₂ := by rw [← hfilter hl₁ hl₂, h, hfilter hm₁ hm₂]
  exact ⟨List.append_cancel_right (hsecond ▸ h), hsecond⟩

/-- **Elements can be left out before or after sorting.** -/
theorem ascendingBy_filter (p : α → Bool) (l : List α) :
    ascendingBy key (l.filter p) = (ascendingBy key l).filter p := by
  induction l with
  | nil => simp [ascendingBy]
  | cons a rest ih =>
    obtain ⟨before, after, hcons, hrest, hbefore, hafter⟩ :=
      ascendingBy_cons key a rest
    rw [hrest, List.filter_append] at ih
    rw [hcons, List.filter_append]
    cases hp : p a with
    | false =>
      rw [List.filter_cons_of_neg (by simp [hp]), List.filter_cons_of_neg (by simp [hp]), ih]
    | true =>
      rw [List.filter_cons_of_pos hp, List.filter_cons_of_pos hp]
      -- the element goes to the same place among those that are kept
      obtain ⟨before', after', hcons', hrest', hbefore', hafter'⟩ :=
        ascendingBy_cons key a (rest.filter p)
      obtain ⟨hfirst, hsecond⟩ := eq_of_append_eq (hrest'.symm.trans ih) hbefore' hafter'
        (fun b hb => hbefore b (List.mem_filter.1 hb).1)
        fun b hb => hafter b (List.mem_filter.1 hb).1
      rw [hcons', hfirst, hsecond]

end BuilderForge
