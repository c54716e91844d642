import BuilderForge.Listing.FirstOccurrence
import Mathlib.Data.List.Nodup

/-!
# Elements with keys

Where no two elements of a list share a key, the key finds the element. What
is made of the elements one by one, under their keys, stands in their order
and shares no key either.

Where keys are shared, the first element of each can be kept: those are the
elements that their keys find (`mem_firstBy_iff`), in the order in which the
keys occur first.
-/

namespace BuilderForge

variable {α β κ : Type} {key : α → κ}

/-- What is made of some elements under their keys stands in their order. -/
theorem map_filterMap_sublist {f : α → Option β} {name : β → κ}
    (h : ∀ a b, f a = some b → name b = key a) (l : List α) :
    ((l.filterMap f).map name).Sublist (l.map key) := by
  induction l with
  | nil => exact .slnil
  | cons a rest ih =>
    cases hf : f a with
    | none =>
      rw [List.filterMap_cons_none hf, List.map_cons]
      exact ih.cons _
    | some b =>
      rw [List.filterMap_cons_some hf, List.map_cons, List.map_cons, h a b hf]
      exact ih.cons_cons _

/-- What is made of some elements is made of them one by one. -/
theorem forall₂_filter_filterMap {f : α → Option β} {p : α → Bool} {R : α → β → Prop} {l : List α}
    (hsome : ∀ a ∈ l, (f a).isSome = p a) (hR : ∀ a ∈ l, ∀ b, f a = some b → R a b) :
    List.Forall₂ R (l.filter p) (l.filterMap f) := by
  induction l with
  | nil => exact .nil
  | cons a rest ih =>
    have hrest : List.Forall₂ R (rest.filter p) (rest.filterMap f) :=
      ih (fun b hb => hsome b (List.mem_cons_of_mem _ hb)) fun b hb =>
        hR b (List.mem_cons_of_mem _ hb)
    have hp := hsome a List.mem_cons_self
    cases hf : f a with
    | none =>
      rw [hf, Option.isSome_none] at hp
      rw [List.filterMap_cons_none hf, List.filter_cons_of_neg (by rw [← hp]; simp)]
      exact hrest
    | some b =>
      rw [hf, Option.isSome_some] at hp
      rw [List.filterMap_cons_some hf, List.filter_cons_of_pos hp.symm]
      exact .cons (hR a List.mem_cons_self b hf) hrest

variable [DecidableEq κ] {l : List α} {k : κ} {a : α}

/-- **A key finds its element**, and no other. -/
theorem find?_key_eq_some_iff (h : (l.map key).Nodup) :
    l.find? (fun b => key b = k) = some a ↔ a ∈ l ∧ key a = k := by
  constructor
  · intro hfind
    exact ⟨List.mem_of_find?_eq_some hfind, by simpa using List.find?_some hfind⟩
  · rintro ⟨hmem, rfl⟩
    cases hfind : l.find? fun b => key b = key a with
    | none => simpa using List.find?_eq_none.1 hfind a hmem
    | some found =>
      have hkey : key found = key a := by simpa using List.find?_some hfind
      rw [List.inj_on_of_nodup_map h (List.mem_of_find?_eq_some hfind) hmem hkey]

/-- A key without an element finds nothing. -/
theorem find?_key_eq_none_iff : l.find? (fun b => key b = k) = none ↔ k ∉ l.map key := by
  simp only [List.find?_eq_none, decide_eq_true_eq, List.mem_map, not_exists, not_and]

/-! ## First occurrences -/

/-- No name is kept twice. -/
theorem nodup_keys_firstBy (key : α → κ) (l : List α) : ((firstBy key l).map key).Nodup :=
  List.pairwise_map.2 (pairwise_firstBy key l)

/-- The elements whose names come first stand in their order. -/
theorem firstBy_sublist (key : α → κ) (l : List α) : (firstBy key l).Sublist l := by
  induction l with
  | nil => exact .slnil
  | cons a rest ih => exact (List.filter_sublist.trans ih).cons_cons a

/-- What comes later counts where its name did not come before. -/
theorem firstBy_append (l later : List α) :
    firstBy key (l ++ later) =
      firstBy key l ++ (firstBy key later).filter fun b => key b ∉ l.map key := by
  induction l with
  | nil => simp [firstBy]
  | cons a rest ih =>
    rw [List.cons_append, firstBy, ih, List.filter_append, List.filter_filter, firstBy,
      List.cons_append]
    simp only [List.map_cons, List.mem_cons, not_or, Bool.decide_and]

/-- **An element is kept exactly if it is the first of its name.** -/
theorem mem_firstBy_iff : a ∈ firstBy key l ↔ l.find? (fun b => key b = key a) = some a := by
  induction l with
  | nil => simp [firstBy]
  | cons b rest ih =>
    rw [firstBy, List.mem_cons, List.mem_filter, ih]
    by_cases hkey : key b = key a
    · rw [List.find?_cons_of_pos (by simpa using hkey), Option.some.injEq]
      constructor
      · rintro (rfl | ⟨-, hne⟩)
        · rfl
        · exact absurd hkey.symm (by simpa using hne)
      · exact fun h => .inl h.symm
    · rw [List.find?_cons_of_neg (by simpa using hkey)]
      have hab : a ≠ b := fun h => hkey (h ▸ rfl)
      have hne : key a ≠ key b := Ne.symm hkey
      simp [hab, hne]

/-- Where no name is repeated, all elements are kept. -/
theorem firstBy_eq_self (h : (l.map key).Nodup) : firstBy key l = l := by
  induction l with
  | nil => rfl
  | cons b rest ih =>
    rw [List.map_cons, List.nodup_cons] at h
    rw [firstBy, ih h.2, List.filter_eq_self.2 fun c hc => ?_]
    have hne : key c ≠ key b := fun hkey => h.1 (hkey ▸ List.mem_map_of_mem hc)
    simpa using hne

/-- **Names come in the order of their first occurrences.** -/
theorem pairwise_idxOf_firstBy (key : α → κ) (l : List α) :
    (firstBy key l).Pairwise fun a b => (l.map key).idxOf (key a) < (l.map key).idxOf (key b) := by
  induction l with
  | nil => exact .nil
  | cons b rest ih =>
    have hlater : ∀ c ∈ (firstBy key rest).filter (fun c => key c ≠ key b),
        ((b :: rest).map key).idxOf (key c) = (rest.map key).idxOf (key c) + 1 := fun c hc => by
      have hne : key c ≠ key b := by simpa using (List.mem_filter.1 hc).2
      rw [List.map_cons, List.idxOf_cons_ne _ hne.symm]
    refine .cons (fun c hc => ?_) ((ih.filter _).imp_of_mem fun {c d} hc hd hlt => ?_)
    · rw [hlater c hc, List.map_cons, List.idxOf_cons_self]
      exact Nat.succ_pos _
    · rw [hlater c hc, hlater d hd]
      exact Nat.succ_lt_succ hlt

/-- The elements whose names come first are the same after a change that
keeps the names. -/
theorem firstBy_map {f : α → α} (h : ∀ a, key (f a) = key a) (l : List α) :
    firstBy key (l.map f) = (firstBy key l).map f := by
  induction l with
  | nil => rfl
  | cons a rest ih =>
    rw [List.map_cons, firstBy, ih, firstBy, List.map_cons, List.filter_map]
    simp only [Function.comp_def, h]

/-- Leaving out elements together with all others of their names leaves them
out of the elements whose names come first. -/
theorem firstBy_filter {p : α → Bool} {l : List α}
    (h : ∀ a ∈ l, ∀ b ∈ l, key a = key b → p a = p b) :
    firstBy key (l.filter p) = (firstBy key l).filter p := by
  induction l with
  | nil => rfl
  | cons a rest ih =>
    have hrest := ih fun b hb c hc =>
      h b (List.mem_cons_of_mem _ hb) c (List.mem_cons_of_mem _ hc)
    cases hp : p a with
    | true =>
      rw [List.filter_cons_of_pos hp, firstBy, hrest, firstBy, List.filter_cons_of_pos hp,
        List.filter_filter, List.filter_filter]
      simp only [Bool.and_comm]
    | false =>
      rw [List.filter_cons_of_neg (by simp [hp]), hrest, firstBy,
        List.filter_cons_of_neg (by simp [hp]), List.filter_filter]
      -- what has the name of the first element goes with it
      refine List.filter_congr fun b hb => ?_
      have hname : p b = true → key b ≠ key a := fun hpb hkey => by
        rw [h b (List.mem_cons_of_mem _ (mem_of_mem_firstBy hb)) a List.mem_cons_self hkey, hp]
          at hpb
        cases hpb
      cases hpb : p b with
      | true => simpa using hname hpb
      | false => rfl

end BuilderForge
