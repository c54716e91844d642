import BuilderForge.Stage.Settlement

/-!
# Writing to tables

What a table holds after many keys were written or erased. The order in
which this happened leaves no trace where no key is written two different
values.
-/

namespace BuilderForge

open Std

variable {κ ω : Type} [Ord κ] [TransOrd κ] [LawfulEqOrd κ]
variable {table : Table κ ω} {pairs : List (κ × ω)} {key : κ} {value : ω}

/-- Writing what a table holds changes nothing. -/
theorem insertMany_eq_self (h : ∀ pair ∈ pairs, table[pair.1]? = some pair.2) :
    table.insertMany pairs = table := by
  induction pairs with
  | nil => exact ExtTreeMap.insertMany_nil
  | cons pair rest ih =>
    have hpair : table.insert pair.1 pair.2 = table := by
      refine ExtTreeMap.ext_getElem? fun k => ?_
      rw [ExtTreeMap.getElem?_insert]
      split
      · next hcmp => rw [← LawfulEqOrd.eq_of_compare hcmp, h pair List.mem_cons_self]
      · rfl
    rw [ExtTreeMap.insertMany_cons, hpair, ih fun p hp => h p (List.mem_cons_of_mem _ hp)]

/-- **Pairs that agree are written as they are**: a table then holds each of
them, and for other keys what it held before. -/
theorem getElem?_insertMany_of_agree
    (h : ∀ p ∈ pairs, ∀ q ∈ pairs, p.1 = q.1 → p.2 = q.2) :
    (table.insertMany pairs)[key]? = some value ↔
      (key, value) ∈ pairs ∨ key ∉ pairs.map Prod.fst ∧ table[key]? = some value := by
  induction pairs generalizing table with
  | nil => simp [ExtTreeMap.insertMany_nil]
  | cons pair rest ih =>
    have hrest : ∀ p ∈ rest, ∀ q ∈ rest, p.1 = q.1 → p.2 = q.2 := fun p hp q hq =>
      h p (List.mem_cons_of_mem _ hp) q (List.mem_cons_of_mem _ hq)
    rw [ExtTreeMap.insertMany_cons, ih hrest, ExtTreeMap.getElem?_insert, List.map_cons,
      List.mem_cons, List.mem_cons, not_or]
    by_cases hkey : key = pair.1
    · subst hkey
      have hpair : ∀ v, (pair.1, v) = pair ↔ pair.2 = v := fun v => by
        rw [Prod.ext_iff]
        exact ⟨fun heq => heq.2.symm, fun heq => ⟨rfl, heq.symm⟩⟩
      simp only [ReflOrd.compare_self, if_true, Option.some.injEq, hpair, not_true_eq_false,
        false_and, or_false]
      constructor
      · rintro (hmem | ⟨-, hvalue⟩)
        · exact .inr hmem
        · exact .inl hvalue
      · rintro (hvalue | hmem)
        · by_cases hlater : pair.1 ∈ rest.map Prod.fst
          · -- a later pair for the key repeats the value
            obtain ⟨p, hp, hfst⟩ := List.mem_map.1 hlater
            have hsnd : p.2 = pair.2 :=
              h p (List.mem_cons_of_mem _ hp) pair List.mem_cons_self hfst
            refine .inl ?_
            rw [← hvalue, ← hfst, ← hsnd]
            exact hp
          · exact .inr ⟨hlater, hvalue⟩
        · exact .inl hmem
    · have hpair : (key, value) ≠ pair := fun heq => hkey (congrArg Prod.fst heq)
      have hcmp : ¬compare pair.1 key = .eq := fun hcmp =>
        hkey (LawfulEqOrd.eq_of_compare hcmp).symm
      simp [hkey, hpair, hcmp]

/-- What is left after keys were erased. -/
theorem getElem?_foldl_erase {keys : List κ} :
    (keys.foldl (fun t k => t.erase k) table)[key]? = some value ↔
      key ∉ keys ∧ table[key]? = some value := by
  induction keys generalizing table with
  | nil => simp
  | cons k rest ih =>
    rw [List.foldl_cons, ih, ExtTreeMap.getElem?_erase, List.mem_cons, not_or]
    by_cases hkey : key = k
    · subst hkey
      simp
    · have hcmp : ¬compare k key = .eq := fun hcmp => hkey (LawfulEqOrd.eq_of_compare hcmp).symm
      simp [hkey, hcmp]

end BuilderForge
