import BuilderForge.Proofs.Naming.Uniqueness

/-!
# Candidates for an identifier

A builder tries its base first, and then its base with a number behind it,
from two on. These texts are its candidates, no two of which are equal, and
it gets the first of them that nobody has (`exists_firstFree_assign`). All
that an identifier depends on is therefore which texts are taken, and not by
whom: where fewer texts are taken it comes no later among the candidates
(`FirstFree.le_of_subset`), and a text that is given back makes a difference
exactly if the builder passed over it (`id_assign_eq_iff`).
-/

namespace BuilderForge

namespace Naming

/-- The texts that a builder tries in turn, given its base. -/
def candidate (base : String) : Nat → String
  | 0 => base
  | i + 1 => numbered base (i + 2)

/-- A number makes a text longer. -/
theorem numbered_ne (base : String) (n : Nat) : numbered base n ≠ base := by
  intro h
  have hlength := congrArg String.length h
  simp only [numbered, String.length_append] at hlength
  have hunderscore : "_".length = 1 := rfl
  omega

/-- **No candidate is tried twice.** -/
theorem candidate_injective (base : String) : Function.Injective (candidate base) := by
  intro i j h
  cases i with
  | zero =>
    cases j with
    | zero => rfl
    | succ j => exact absurd h.symm (numbered_ne base (j + 2))
  | succ i =>
    cases j with
    | zero => exact absurd h (numbered_ne base (i + 2))
    | succ j =>
      have hnumber := numbered_inj.1 h
      omega

/-! ## The first free candidate -/

/-- The candidate at the given place is free, and those ahead of it are
taken. -/
structure FirstFree (base : String) (texts : List String) (i : Nat) : Prop where
  free : candidate base i ∉ texts
  taken : ∀ j < i, candidate base j ∈ texts

/-- Where fewer texts are taken, the first free candidate comes no later. -/
theorem FirstFree.le_of_subset {base : String} {texts fewer : List String} {i j : Nat}
    (h : FirstFree base texts i) (hfewer : FirstFree base fewer j) (hsub : fewer ⊆ texts) :
    j ≤ i := by
  by_contra hlt
  exact h.free (hsub (hfewer.taken i (by omega)))

/-- There is only one first free candidate. -/
theorem FirstFree.unique {base : String} {texts : List String} {i j : Nat}
    (hi : FirstFree base texts i) (hj : FirstFree base texts j) : i = j :=
  Nat.le_antisymm (hj.le_of_subset hi (List.Subset.refl _))
    (hi.le_of_subset hj (List.Subset.refl _))

/-- The search for a free number leaves none out. -/
theorem numbered_mem_of_lt_freeNumber {base : String} {taken : List String} {n m : Nat}
    (hle : n ≤ m) (hlt : m < freeNumber base taken n) : numbered base m ∈ taken := by
  fun_induction freeNumber base taken n with
  | case1 taken n hmem ih =>
    rcases Nat.eq_or_lt_of_le hle with rfl | hgt
    · exact hmem
    · exact List.mem_of_mem_erase (ih hgt hlt)
  | case2 taken n hfree => omega

/-! ## Assignments by candidates -/

variable {taken fewer : List (String × Holder)} {key : BuilderKey} {text : String}

/-- The base of an assignment is that of its builder. -/
@[simp]
theorem base_assign (taken : List (String × Holder)) (key : BuilderKey) :
    (assign taken key).base = baseIdentifier key.scope key.name := by
  cases hlookup : taken.lookup (baseIdentifier key.scope key.name) with
  | none => rw [assign_of_free hlookup]
  | some holder => rw [assign_of_taken hlookup]

/-- A text with a holder is taken. -/
theorem mem_of_lookup {holder : Holder} (h : taken.lookup text = some holder) :
    text ∈ taken.map Prod.fst := by
  by_contra hmem
  have hnone : taken.lookup text = none := by
    refine List.lookup_eq_none_iff.2 fun pair hpair => ?_
    have hne : text ≠ pair.1 := fun heq => hmem (heq ▸ List.mem_map_of_mem hpair)
    simpa using hne
  rw [hnone] at h
  cases h

/-- **A builder gets the first of its candidates that is free.** -/
theorem exists_firstFree_assign (taken : List (String × Holder)) (key : BuilderKey) :
    ∃ i, (assign taken key).id.text = candidate (assign taken key).base i ∧
      FirstFree (assign taken key).base (taken.map Prod.fst) i := by
  have hfree := id_assign_not_mem taken key
  cases hlookup : taken.lookup (baseIdentifier key.scope key.name) with
  | none =>
    rw [assign_of_free hlookup] at hfree ⊢
    exact ⟨0, rfl, hfree, fun j hj => absurd hj (Nat.not_lt_zero j)⟩
  | some holder =>
    rw [assign_of_taken hlookup] at hfree ⊢
    obtain ⟨k, hk⟩ := Nat.exists_eq_add_of_le'
      (le_freeNumber (baseIdentifier key.scope key.name) (taken.map Prod.fst) 2)
    rw [hk] at hfree ⊢
    refine ⟨k + 1, rfl, hfree, fun j hj => ?_⟩
    -- an earlier candidate is the base, which is taken, or has a number below the free one
    cases j with
    | zero => exact mem_of_lookup hlookup
    | succ j =>
      have hlow : 2 ≤ j + 2 := by omega
      have hhigh : j + 2 < k + 2 := by omega
      exact numbered_mem_of_lt_freeNumber hlow (hk ▸ hhigh)

/-- A builder has a rival for its base exactly if it gets another text. -/
theorem isSome_holder_assign (taken : List (String × Holder)) (key : BuilderKey) :
    (assign taken key).holder.isSome ↔ (assign taken key).id.text ≠ (assign taken key).base := by
  cases hlookup : taken.lookup (baseIdentifier key.scope key.name) with
  | none => simp [assign_of_free hlookup]
  | some holder => simp [assign_of_taken hlookup, numbered_ne]

/-- Every assignment is that of its builder, given what was taken then. -/
theorem exists_of_mem_assignAll {keys : List BuilderKey} {assignment : Assignment}
    (h : assignment ∈ assignAll taken keys) :
    ∃ earlier, assignment = assign earlier assignment.key := by
  induction keys generalizing taken with
  | nil => cases h
  | cons key rest ih =>
    rcases List.mem_cons.1 h with rfl | h
    · exact ⟨taken, by rw [key_assign]⟩
    · exact ih h

/-- A builder tried a text before the one that it got. -/
def Assignment.PassesOver (assignment : Assignment) (text : String) : Prop :=
  ∃ i j, j < i ∧ assignment.id.text = candidate assignment.base i ∧
    text = candidate assignment.base j

/-- **What is passed over is taken.** -/
theorem mem_of_passesOver (h : (assign taken key).PassesOver text) :
    text ∈ taken.map Prod.fst := by
  obtain ⟨i, j, hlt, hid, rfl⟩ := h
  obtain ⟨least, hleast, hfirst⟩ := exists_firstFree_assign taken key
  obtain rfl : i = least := candidate_injective _ (hid.symm.trans hleast)
  exact hfirst.taken j hlt

/-- Where fewer texts are taken, a builder gets the same identifier or one
that is taken otherwise. -/
theorem id_assign_of_subset (h : fewer.map Prod.fst ⊆ taken.map Prod.fst) (key : BuilderKey) :
    (assign fewer key).id.text = (assign taken key).id.text ∨
      (assign fewer key).id.text ∈ taken.map Prod.fst := by
  obtain ⟨i, hid, hfirst⟩ := exists_firstFree_assign taken key
  obtain ⟨j, hidFewer, hfirstFewer⟩ := exists_firstFree_assign fewer key
  rw [base_assign] at hid hfirst hidFewer hfirstFewer
  rw [hid, hidFewer]
  rcases Nat.eq_or_lt_of_le (hfirst.le_of_subset hfirstFewer h) with rfl | hlt
  · exact .inl rfl
  · exact .inr (hfirst.taken j hlt)

/-- **A text that is given back makes a difference to a builder** exactly if
the builder passed over it. -/
theorem id_assign_eq_iff (hmem : text ∈ taken.map Prod.fst) (hnot : text ∉ fewer.map Prod.fst)
    (h : ∀ other, other ≠ text → (other ∈ fewer.map Prod.fst ↔ other ∈ taken.map Prod.fst)) :
    (assign fewer key).id = (assign taken key).id ↔ ¬(assign taken key).PassesOver text := by
  obtain ⟨i, hid, hfirst⟩ := exists_firstFree_assign taken key
  obtain ⟨j, hidFewer, hfirstFewer⟩ := exists_firstFree_assign fewer key
  rw [base_assign] at hid hfirst hidFewer hfirstFewer
  constructor
  · rintro heq ⟨k, l, hlt, hk, rfl⟩
    rw [base_assign] at hnot hk
    -- both got the same candidate, so the text was tried and taken in both
    have hki : k = i := candidate_injective _ (hk.symm.trans hid)
    have hji : j = i := by
      refine candidate_injective _ (hidFewer.symm.trans (Eq.trans ?_ hid))
      rw [heq]
    exact hnot (hfirstFewer.taken l (by omega))
  · intro hpass
    have hother : ∀ l ≤ i, candidate (baseIdentifier key.scope key.name) l ≠ text := by
      rintro l hle rfl
      rcases Nat.eq_or_lt_of_le hle with rfl | hlt
      · exact hfirst.free hmem
      · exact hpass ⟨i, l, hlt, by rw [base_assign]; exact hid, by rw [base_assign]⟩
    have hsame : FirstFree (baseIdentifier key.scope key.name) (fewer.map Prod.fst) i :=
      ⟨fun hfewer => hfirst.free ((h _ (hother i (Nat.le_refl i))).1 hfewer),
        fun l hlt => (h _ (hother l (Nat.le_of_lt hlt))).2 (hfirst.taken l hlt)⟩
    obtain rfl := hsame.unique hfirstFewer
    have htext : (assign fewer key).id.text = (assign taken key).id.text := hidFewer.trans hid.symm
    exact congrArg ArtifactId.mk htext

end Naming

end BuilderForge
