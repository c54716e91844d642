import BuilderForge.Provider.Catalog

/-!
# The walk along the bases

The bases of a type need not end: a front end may let a type be its own base,
or let two types of one name stand for each other. One can climb them as far
as one likes (`Catalog.Climbs`). The walk climbs them while it meets full
names that are new, so it is the longest climb on which no name repeats
(`Climbs.isPrefix_chainFrom`), and no longer than the catalog, for each step
leaves one type less to see (`length_chainFrom_le`).
-/

namespace BuilderForge

namespace Catalog

variable {catalog : Catalog} {seen : List String} {next : Option Nat}

/-- A walk to a place outside the catalog is over. -/
theorem chainFrom_of_none (h : next.bind (catalog[·]?) = none) :
    catalog.chainFrom seen next = [] := by
  rw [chainFrom]
  split
  · rfl
  · next hsome => rw [h] at hsome; cases hsome

/-- Elsewhere it goes on unless the type was seen before. -/
theorem chainFrom_of_some {type : TypeInfo} (h : next.bind (catalog[·]?) = some type) :
    catalog.chainFrom seen next =
      if type.fullName ∈ seen then []
      else type :: catalog.chainFrom (type.fullName :: seen) type.base := by
  rw [chainFrom]
  split
  · next hnone => rw [h] at hnone; cases hnone
  · next found hfound =>
    obtain rfl := Option.some.inj (h.symm.trans hfound)
    rfl

/-- **Types that follow each other along the bases**, from the one at a place
on; the last of them may have a base, and any of them may come again. -/
inductive Climbs (catalog : Catalog) : Option Nat → List TypeInfo → Prop
  /-- One can stop anywhere. -/
  | stop {next : Option Nat} : Climbs catalog next []
  /-- One goes on from a type to its base. -/
  | step {next : Option Nat} {type : TypeInfo} {types : List TypeInfo} :
      next.bind (catalog[·]?) = some type → Climbs catalog type.base types →
      Climbs catalog next (type :: types)

/-- The walk is a climb. -/
theorem climbs_chainFrom (catalog : Catalog) (seen : List String) (next : Option Nat) :
    catalog.Climbs next (catalog.chainFrom seen next) := by
  fun_induction chainFrom catalog seen next with
  | case1 seen next hnone => exact .stop
  | case2 seen next type hsome hseen => exact .stop
  | case3 seen next type hsome hseen _ ih => exact .step hsome ih

/-- It meets no name that was seen before, -/
theorem fullName_notMem_of_mem_chainFrom {type : TypeInfo}
    (h : type ∈ catalog.chainFrom seen next) : type.fullName ∉ seen := by
  fun_induction chainFrom catalog seen next with
  | case1 seen next hnone => cases h
  | case2 seen next found hsome hseen => cases h
  | case3 seen next found hsome hseen _ ih =>
    rcases List.mem_cons.1 h with rfl | hlater
    · exact hseen
    · exact fun hmem => ih hlater (List.mem_cons_of_mem _ hmem)

/-- and none twice. -/
theorem nodup_fullNames_chainFrom (catalog : Catalog) (seen : List String) (next : Option Nat) :
    ((catalog.chainFrom seen next).map TypeInfo.fullName).Nodup := by
  fun_induction chainFrom catalog seen next with
  | case1 seen next hnone => exact .nil
  | case2 seen next type hsome hseen => exact .nil
  | case3 seen next type hsome hseen _ ih =>
    refine List.nodup_cons.2 ⟨fun hmem => ?_, ih⟩
    obtain ⟨later, hlater, hname⟩ := List.mem_map.1 hmem
    exact fullName_notMem_of_mem_chainFrom hlater (hname ▸ List.mem_cons_self)

/-- **No climb on new names gets further than the walk.** -/
theorem Climbs.isPrefix_chainFrom {types : List TypeInfo} (h : catalog.Climbs next types)
    (hnodup : (types.map TypeInfo.fullName).Nodup)
    (hnew : ∀ type ∈ types, type.fullName ∉ seen) : types <+: catalog.chainFrom seen next := by
  induction h generalizing seen with
  | stop => exact List.nil_prefix
  | @step next type types hsome _ ih =>
    rw [List.map_cons, List.nodup_cons] at hnodup
    rw [chainFrom_of_some hsome, if_neg (hnew type List.mem_cons_self), List.cons_prefix_cons]
    refine ⟨rfl, ih hnodup.2 fun later hlater hmem => ?_⟩
    rcases List.mem_cons.1 hmem with hname | hseen
    · exact hnodup.1 (hname ▸ List.mem_map_of_mem hlater)
    · exact hnew later (List.mem_cons_of_mem _ hlater) hseen

/-- **The walk is no longer than there are types to see.** -/
theorem length_chainFrom_le (catalog : Catalog) (seen : List String) (next : Option Nat) :
    (catalog.chainFrom seen next).length ≤ catalog.unseen seen := by
  fun_induction chainFrom catalog seen next with
  | case1 seen next hnone => exact Nat.zero_le _
  | case2 seen next type hsome hseen => exact Nat.zero_le _
  | case3 seen next type hsome hseen hlt ih =>
    rw [List.length_cons]
    omega

/-- **The types that are visited** for the one at a place: the longest climb
from it on which no full name repeats. -/
structure Visits (catalog : Catalog) (index : Nat) (types : List TypeInfo) : Prop where
  climbs : catalog.Climbs (some index) types
  names_once : (types.map TypeInfo.fullName).Nodup
  longest : ∀ others, catalog.Climbs (some index) others →
    (others.map TypeInfo.fullName).Nodup → others <+: types
  /-- The visit ends, be there a cycle or not. -/
  bounded : types.length ≤ catalog.length

/-- The types that are visited are those of the chain. -/
theorem visits_chain (catalog : Catalog) (index : Nat) :
    catalog.Visits index (catalog.chain index) where
  climbs := climbs_chainFrom catalog [] (some index)
  names_once := nodup_fullNames_chainFrom catalog [] (some index)
  longest _ hclimbs hnodup := hclimbs.isPrefix_chainFrom hnodup fun _ _ => List.not_mem_nil
  bounded := Nat.le_trans (length_chainFrom_le catalog [] (some index)) (List.length_filter_le _ _)

end Catalog

end BuilderForge
