import BuilderForge.Naming.Resolution
import BuilderForge.Proofs.Listing.Order
import Mathlib.Data.List.Nodup
import Std.Data.String.ToNat

/-!
# Identifiers are unique

No identifier is given twice, and none that the support artifacts have is
given at all. A builder that cannot have its base gets a number behind it,
and different numbers give different texts, so the search for a free one
ends with an identifier that nobody has (`numbered_freeNumber_not_mem`).
Each assignment then keeps all identifiers apart (`nodup_assignAll`).
-/

namespace BuilderForge

namespace Naming

/-! ## Free numbers -/

/-- Different numbers give different texts. -/
theorem numbered_inj {base : String} {m n : Nat} : numbered base m = numbered base n ↔ m = n := by
  rw [numbered, numbered, String.append_right_inj]
  exact Nat.repr_inj

/-- The search goes upwards. -/
theorem le_freeNumber (base : String) (taken : List String) (n : Nat) :
    n ≤ freeNumber base taken n := by
  fun_induction freeNumber base taken n with
  | case1 taken n _ ih => omega
  | case2 taken n _ => omega

/-- **The search ends with a text that is free.** -/
theorem numbered_freeNumber_not_mem (base : String) (taken : List String) (n : Nat) :
    numbered base (freeNumber base taken n) ∉ taken := by
  fun_induction freeNumber base taken n with
  | case1 taken n _ ih =>
    -- what was dropped belongs to a lower number
    have hlt : n + 1 ≤ freeNumber base (taken.erase (numbered base n)) (n + 1) := le_freeNumber ..
    have hne : numbered base (freeNumber base (taken.erase (numbered base n)) (n + 1)) ≠
        numbered base n := by
      rw [Ne, numbered_inj]
      omega
    rwa [List.mem_erase_of_ne hne] at ih
  | case2 taken n hfree => exact hfree

/-! ## Assignments -/

variable {taken : List (String × Holder)} {keys : List BuilderKey}

/-- A builder gets its base if nobody has it. -/
theorem assign_of_free {key : BuilderKey}
    (h : taken.lookup (baseIdentifier key.scope key.name) = none) :
    assign taken key = ⟨key, baseIdentifier key.scope key.name,
      ⟨baseIdentifier key.scope key.name⟩, none⟩ := by
  simp only [assign, h]

/-- And otherwise its base with a free number. -/
theorem assign_of_taken {key : BuilderKey} {holder : Holder}
    (h : taken.lookup (baseIdentifier key.scope key.name) = some holder) :
    assign taken key = ⟨key, baseIdentifier key.scope key.name,
      ⟨numbered (baseIdentifier key.scope key.name)
        (freeNumber (baseIdentifier key.scope key.name) (taken.map Prod.fst) 2)⟩,
      some holder⟩ := by
  simp only [assign, h]

/-- **An assigned identifier was free.** -/
theorem id_assign_not_mem (taken : List (String × Holder)) (key : BuilderKey) :
    (assign taken key).id.text ∉ taken.map Prod.fst := by
  cases hlookup : taken.lookup (baseIdentifier key.scope key.name) with
  | none =>
    rw [assign_of_free hlookup]
    intro hmem
    obtain ⟨pair, hpair, hfst⟩ := List.mem_map.1 hmem
    have hne := List.lookup_eq_none_iff.1 hlookup pair hpair
    simp [hfst] at hne
  | some holder =>
    rw [assign_of_taken hlookup]
    exact numbered_freeNumber_not_mem _ _ _

/-- The assignment of a builder is its own. -/
@[simp]
theorem key_assign (taken : List (String × Holder)) (key : BuilderKey) :
    (assign taken key).key = key := by
  cases hlookup : taken.lookup (baseIdentifier key.scope key.name) with
  | none => rw [assign_of_free hlookup]
  | some holder => rw [assign_of_taken hlookup]

/-- Every builder has one assignment, in order. -/
@[simp]
theorem map_key_assignAll (taken : List (String × Holder)) (keys : List BuilderKey) :
    (assignAll taken keys).map Assignment.key = keys := by
  induction keys generalizing taken with
  | nil => rfl
  | cons key rest ih => rw [assignAll, List.map_cons, ih, key_assign]

/-- **Assignments keep all identifiers apart**, those that were taken before
and those that are given. -/
theorem nodup_assignAll (h : (taken.map Prod.fst).Nodup) :
    ((assignAll taken keys).map (fun a => a.id.text) ++ taken.map Prod.fst).Nodup := by
  induction keys generalizing taken with
  | nil => exact h
  | cons key rest ih =>
    have htaken : ((((assign taken key).id.text, Holder.builder key) :: taken).map
        Prod.fst).Nodup := List.nodup_cons.2 ⟨id_assign_not_mem taken key, h⟩
    -- for the rest the new identifier is one of those that are taken
    exact List.perm_middle.nodup_iff.1 (ih htaken)

end Naming

namespace Resolution

/-! ## The identifiers of a run -/

variable {keys : List BuilderKey} {key other : BuilderKey} {id : ArtifactId}

/-- No two builders of a run, and no support artifact, share an identifier. -/
theorem nodup_ofKeys (keys : List BuilderKey) :
    ((ofKeys keys).assignments.map (fun a => a.id.text) ++ Naming.reserved.map Prod.fst).Nodup :=
  Naming.nodup_assignAll (by decide)

/-- An identifier comes from the assignment of its builder. -/
theorem exists_of_id? (h : (ofKeys keys).id? key = some id) :
    ∃ a ∈ (ofKeys keys).assignments, a.key = key ∧ a.id = id := by
  obtain ⟨a, hfind, hid⟩ := Option.map_eq_some_iff.1 h
  exact ⟨a, List.mem_of_find?_eq_some hfind, by simpa using List.find?_some hfind, hid⟩

/-- **Different builders have different identifiers.** -/
theorem id?_injective (h : (ofKeys keys).id? key = some id)
    (hother : (ofKeys keys).id? other = some id) : key = other := by
  obtain ⟨a, ha, rfl, rfl⟩ := exists_of_id? h
  obtain ⟨b, hb, rfl, hid⟩ := exists_of_id? hother
  have hnodup := (List.nodup_append.1 (nodup_ofKeys keys)).1
  rw [List.inj_on_of_nodup_map hnodup ha hb (by rw [hid])]

/-- **No builder has the identifier of a support artifact.** -/
theorem id?_not_reserved (h : (ofKeys keys).id? key = some id) :
    id.text ∉ Naming.reserved.map Prod.fst := by
  obtain ⟨a, ha, -, rfl⟩ := exists_of_id? h
  intro hmem
  exact (List.nodup_append.1 (nodup_ofKeys keys)).2.2 a.id.text
    (List.mem_map_of_mem (f := fun a => a.id.text) ha) a.id.text hmem rfl

end Resolution

end BuilderForge
