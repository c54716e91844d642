import BuilderForge.Listing.Ascending
import Mathlib.Data.List.Nodup

/-!
# Lists that ascend strictly

Where no two elements share a key, the sorted form of a list is fixed by
which elements it has: the order in which they came leaves no trace. That is
what makes the outputs of a stage a function of its results, however these
were found, and it is used in one form throughout: a list that ascends, and
that rearranges `l`, is `ascendingBy key l` (`AscendsBy.eq_ascendingBy`).
-/

namespace BuilderForge

open Std

variable {α β κ : Type} [Ord κ]

/-- The keys of `l` ascend strictly. -/
def AscendsBy (key : α → κ) (l : List α) : Prop :=
  l.Pairwise fun a b => compare (key a) (key b) = .lt

instance (key : α → κ) (l : List α) : Decidable (AscendsBy key l) :=
  inferInstanceAs (Decidable (List.Pairwise _ l))

/-- The listing of a set of values ascends strictly. -/
theorem ascendsBy_distinctAscending [TransOrd κ] (l : List κ) :
    AscendsBy id (distinctAscending l) :=
  pairwise_distinctAscending l

/-- Strict ascent looks at the keys alone. -/
theorem ascendsBy_map {key : β → κ} {f : α → β} {l : List α} :
    AscendsBy key (l.map f) ↔ AscendsBy (fun a => key (f a)) l :=
  List.pairwise_map

/-- Leaving elements out keeps a list ascending. -/
theorem AscendsBy.sublist {key : α → κ} {l m : List α} (h : AscendsBy key m)
    (hsub : l.Sublist m) : AscendsBy key l :=
  List.Pairwise.sublist hsub h

/-- A list that never descends is its own sorted form. -/
theorem ascending_eq_self {values : List κ}
    (h : values.Pairwise fun a b => (compare a b).isLE) : ascending values = values :=
  List.mergeSort_of_pairwise h

variable [TransOrd κ] {key : α → κ} {l m : List α}

/-- No key stands twice in a list that ascends strictly. -/
theorem AscendsBy.nodup_keys (h : AscendsBy key l) : (l.map key).Nodup := by
  refine List.pairwise_map.2 (h.imp fun {a b} hab heq => ?_)
  rw [heq, ReflOrd.compare_self] at hab
  cases hab

/-- Two lists that ascend strictly and have the same elements are equal. -/
theorem AscendsBy.eq_of_perm (hl : AscendsBy key l) (hm : AscendsBy key m) (h : l.Perm m) :
    l = m := by
  refine List.Perm.eq_of_pairwise (fun a b _ _ hab hba => ?_) hl hm h
  have := OrientedOrd.eq_swap (a := key a) (b := key b)
  rw [hab, hba] at this
  cases this

/-- Elements with distinct keys are distinct. -/
theorem AscendsBy.nodup (h : AscendsBy key l) : l.Nodup :=
  List.Nodup.of_map key h.nodup_keys

/-- **A list that ascends strictly is fixed by its elements.** -/
theorem AscendsBy.eq_of_mem_iff (hl : AscendsBy key l) (hm : AscendsBy key m)
    (h : ∀ a, a ∈ l ↔ a ∈ m) : l = m :=
  hl.eq_of_perm hm ((List.perm_ext_iff_of_nodup hl.nodup hm.nodup).2 h)

/-- A list that ascends strictly is parted at a value: first stands what is
before it. -/
theorem AscendsBy.eq_filter_append_filter {values : List κ} (h : AscendsBy id values)
    (value : κ) :
    values = values.filter (compare · value = .lt) ++ values.filter (compare · value ≠ .lt) := by
  induction values with
  | nil => rfl
  | cons first rest ih =>
    obtain ⟨hfirst, hrest⟩ := List.pairwise_cons.1 h
    by_cases hlt : compare first value = .lt
    · rw [List.filter_cons_of_pos (by simpa using hlt),
        List.filter_cons_of_neg (by simpa using hlt), List.cons_append, ← ih hrest]
    · -- what follows an element that is not before the value is not before it either
      have hlater : ∀ other ∈ first :: rest, compare other value ≠ .lt := by
        intro other hmem hother
        rcases List.mem_cons.1 hmem with rfl | hmem
        · exact hlt hother
        · exact hlt (TransCmp.lt_trans (hfirst other hmem) hother)
      rw [List.filter_eq_nil_iff.2 fun other hmem => by simpa using hlater other hmem,
        List.filter_eq_self.2 fun other hmem => by simpa using hlater other hmem,
        List.nil_append]

/-- What stands in front of a value is what is before it. -/
theorem AscendsBy.filter_lt_eq {value : κ} {front back : List κ}
    (h : AscendsBy id (front ++ value :: back)) :
    (front ++ value :: back).filter (compare · value = .lt) = front := by
  obtain ⟨-, hback, hfront⟩ := List.pairwise_append.1 h
  have hbehind : ∀ other ∈ value :: back, ¬decide (compare other value = .lt) = true := by
    intro other hmem
    rw [decide_eq_true_eq]
    rcases List.mem_cons.1 hmem with rfl | hmem
    · rw [ReflOrd.compare_self]
      decide
    · have hlater : compare value other = .lt := List.rel_of_pairwise_cons hback hmem
      rw [OrientedOrd.eq_swap, hlater]
      decide
  rw [List.filter_append, List.filter_eq_nil_iff.2 hbehind, List.append_nil]
  exact List.filter_eq_self.2 fun other hmem => by
    simpa using hfront other hmem value List.mem_cons_self

variable [LawfulEqOrd κ]

/-- Values are listed in the same way wherever they are the same. -/
theorem distinctAscending_congr [DecidableEq κ] {values others : List κ}
    (h : ∀ a, a ∈ values ↔ a ∈ others) : distinctAscending values = distinctAscending others :=
  (ascendsBy_distinctAscending _).eq_of_mem_iff (ascendsBy_distinctAscending _) fun a => by
    simpa only [mem_distinctAscending] using h a

/-- Values that ascend strictly are listed as they stand. -/
theorem AscendsBy.distinctAscending_eq [DecidableEq κ] {values : List κ}
    (h : AscendsBy id values) : distinctAscending values = values :=
  (ascendsBy_distinctAscending values).eq_of_mem_iff h fun _ => mem_distinctAscending

/-- **Sorting by the whole value forgets the order** in which values came. -/
theorem ascending_congr {values others : List κ} (h : values.Perm others) :
    ascending values = ascending others := by
  have hperm : (ascending values).Perm (ascending others) :=
    (ascendingBy_perm id values).trans (h.trans (ascendingBy_perm id others).symm)
  refine List.Perm.eq_of_pairwise (fun a b _ _ hab hba => ?_) (pairwise_ascendingBy id values)
    (pairwise_ascendingBy id others) hperm
  exact LawfulEqOrd.eq_of_compare (OrientedCmp.isLE_antisymm hab hba)

/-- The listing of the values of a part is that part of the listing. -/
theorem distinctAscending_filter [DecidableEq κ] (p : κ → Bool) (values : List κ) :
    distinctAscending (values.filter p) = (distinctAscending values).filter p := by
  refine (ascendsBy_distinctAscending _).eq_of_mem_iff
    ((ascendsBy_distinctAscending values).sublist List.filter_sublist) fun a => ?_
  simp

/-- The listing of fewer values is a part of the listing. -/
theorem distinctAscending_sublist [DecidableEq κ] {values fewer : List κ} (h : fewer ⊆ values) :
    (distinctAscending fewer).Sublist (distinctAscending values) := by
  have hpart : distinctAscending fewer = (distinctAscending values).filter (· ∈ fewer) := by
    refine (ascendsBy_distinctAscending _).eq_of_mem_iff
      ((ascendsBy_distinctAscending values).sublist List.filter_sublist) fun a => ?_
    simp only [mem_distinctAscending, List.mem_filter, decide_eq_true_eq]
    exact ⟨fun ha => ⟨h ha, ha⟩, fun ha => ha.2⟩
  rw [hpart]
  exact List.filter_sublist

omit [TransOrd κ] in
/-- **Sorting leaves no ties** where no two elements share a key. -/
theorem ascendsBy_of_pairwise_isLE (h : l.Pairwise fun a b => (compare (key a) (key b)).isLE)
    (hkeys : (l.map key).Nodup) : AscendsBy key l := by
  refine (h.and (List.pairwise_map.1 hkeys)).imp fun {a b} hab => ?_
  obtain ⟨hle, hne⟩ := hab
  cases hcmp : compare (key a) (key b) with
  | lt => rfl
  | eq => exact absurd (LawfulEqOrd.eq_of_compare hcmp) hne
  | gt => rw [hcmp] at hle; cases hle

/-- The sorted form of a list without repeated keys ascends strictly. -/
theorem ascendsBy_ascendingBy (h : (l.map key).Nodup) : AscendsBy key (ascendingBy key l) :=
  ascendsBy_of_pairwise_isLE (pairwise_ascendingBy key l)
    (((ascendingBy_perm key l).map key).nodup_iff.2 h)

/-- **Order of discovery leaves no trace**: a rearrangement of `m` that
ascends strictly is its sorted form. -/
theorem AscendsBy.eq_ascendingBy (hl : AscendsBy key l) (h : l.Perm m) : l = ascendingBy key m :=
  hl.eq_of_perm (ascendsBy_ascendingBy ((h.map key).nodup_iff.1 hl.nodup_keys))
    (h.trans (ascendingBy_perm key m).symm)

/-- A list that ascends strictly is its own sorted form. -/
theorem AscendsBy.ascendingBy_eq (h : AscendsBy key l) : ascendingBy key l = l :=
  (h.eq_ascendingBy .rfl).symm

end BuilderForge
