/-!
# First occurrences

Where several elements of a list bear the same name, the first of them
counts and the later ones are dropped. `firstBy` applies that rule.
-/

namespace BuilderForge

variable {α β : Type} [DecidableEq β]

/-- The elements of `l` whose name no earlier element bears, in order. -/
def firstBy (name : α → β) : List α → List α
  | [] => []
  | a :: rest => a :: (firstBy name rest).filter fun b => name b ≠ name a

/-- What is kept was there. -/
theorem mem_of_mem_firstBy {name : α → β} {l : List α} {a : α} (h : a ∈ firstBy name l) :
    a ∈ l := by
  induction l with
  | nil => exact h
  | cons b rest ih =>
    rcases List.mem_cons.1 h with rfl | h
    · exact List.mem_cons_self
    · exact List.mem_cons_of_mem _ (ih (List.mem_filter.1 h).1)

/-- No two elements that are kept bear the same name. -/
theorem pairwise_firstBy (name : α → β) (l : List α) :
    (firstBy name l).Pairwise fun a b => name a ≠ name b := by
  induction l with
  | nil => exact .nil
  | cons a rest ih =>
    refine .cons (fun b hb => ?_) (ih.filter _)
    have := (List.mem_filter.1 hb).2
    simpa using Ne.symm (of_decide_eq_true this)

/-- Every name of the list is kept once. -/
theorem exists_mem_firstBy_iff {name : α → β} {l : List α} {n : β} :
    (∃ a ∈ firstBy name l, name a = n) ↔ ∃ a ∈ l, name a = n := by
  constructor
  · rintro ⟨a, ha, rfl⟩
    exact ⟨a, mem_of_mem_firstBy ha, rfl⟩
  · induction l with
    | nil => rintro ⟨a, ha, -⟩; cases ha
    | cons b rest ih =>
      rintro ⟨a, ha, rfl⟩
      by_cases hab : name a = name b
      · exact ⟨b, List.mem_cons_self, hab.symm⟩
      · have hrest : a ∈ rest := by
          rcases List.mem_cons.1 ha with rfl | h
          · exact absurd rfl hab
          · exact h
        obtain ⟨c, hc, hca⟩ := ih ⟨a, hrest, rfl⟩
        refine ⟨c, List.mem_cons_of_mem _ (List.mem_filter.2 ⟨hc, ?_⟩), hca⟩
        simpa [hca] using hab

end BuilderForge
