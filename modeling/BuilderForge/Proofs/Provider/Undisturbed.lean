import BuilderForge.Pipeline.Jobs
import BuilderForge.Proofs.Listing.Keys
import BuilderForge.Proofs.Provider.Walk

/-!
# Reading without being disturbed

An object that may call the run off is otherwise read like any other: the
walk along the bases, the members that count and the specification of a
declaration do not look at the mark. So a batch gives the same
specifications whether or not it is read undisturbed
(`Batch.extracted_undisturbed`).
-/

namespace BuilderForge

/-- The type as it is read when nothing calls the run off. -/
def TypeInfo.undisturbed (type : TypeInfo) : TypeInfo :=
  { type with cancels := false }

/-- The declaration as it is read when nothing calls the run off. -/
def Declaration.undisturbed (declaration : Declaration) : Declaration :=
  { declaration with cancels := false }

/-! ## Walks along the bases -/

namespace Catalog

/-- What is found in an undisturbed catalog. -/
theorem bind_getElem?_undisturbed (catalog : Catalog) (next : Option Nat) :
    next.bind ((catalog.map TypeInfo.undisturbed)[·]?) =
      (next.bind (catalog[·]?)).map TypeInfo.undisturbed := by
  cases next with
  | none => rfl
  | some index => exact List.getElem?_map

/-- **The walk along the bases goes the same way** if nothing disturbs it. -/
theorem chainFrom_undisturbed (catalog : Catalog) (seen : List String) (next : Option Nat) :
    Catalog.chainFrom (catalog.map TypeInfo.undisturbed) seen next =
      (catalog.chainFrom seen next).map TypeInfo.undisturbed := by
  -- the cases are where the walk ends, where it comes back to a name, and where it goes on
  fun_induction chainFrom catalog seen next with
  | case1 seen next hnone =>
    rw [chainFrom_of_none (by rw [bind_getElem?_undisturbed, hnone]; rfl), List.map_nil]
  | case2 seen next type hsome hseen =>
    rw [chainFrom_of_some (by rw [bind_getElem?_undisturbed, hsome]; rfl), List.map_nil]
    exact if_pos hseen
  | case3 seen next type hsome hseen _ ih =>
    rw [chainFrom_of_some (by rw [bind_getElem?_undisturbed, hsome]; rfl), List.map_cons, ← ih]
    exact if_neg hseen

/-- And the same members count along it. -/
theorem collect_undisturbed (catalog : Catalog) (index : Nat) :
    Catalog.collect (catalog.map TypeInfo.undisturbed) index = catalog.collect index := by
  rw [collect, chain, chainFrom_undisturbed, visibleMembers, List.flatMap_map]
  rfl

end Catalog

/-! ## Specifications of a batch -/

/-- A declaration gives the same specification. -/
theorem Declaration.extract_undisturbed (catalog : Catalog) (declaration : Declaration) :
    declaration.undisturbed.extract (catalog.map TypeInfo.undisturbed) =
      declaration.extract catalog := by
  obtain ⟨id, scope, name, argument, cancels⟩ := declaration
  cases argument with
  | type index =>
    simp only [undisturbed, extract, List.getElem?_map, Option.map_map,
      Catalog.collect_undisturbed]
    rfl
  | missing => rfl
  | malformed text => rfl

/-- And nothing calls the run off while it is read. -/
theorem Declaration.cancelsExtraction_undisturbed (catalog : Catalog)
    (declaration : Declaration) :
    declaration.undisturbed.cancelsExtraction (catalog.map TypeInfo.undisturbed) = false := by
  unfold cancelsExtraction
  rw [Bool.or_eq_false_iff]
  refine ⟨rfl, ?_⟩
  split
  · rw [Catalog.chain, Catalog.chainFrom_undisturbed, List.any_map]
    exact List.any_eq_false.2 fun type _ => Bool.false_ne_true
  · rfl
  · rfl

namespace Batch

/-- The specifications that the declarations of a batch give, each with the
identity of its declaration. -/
def extracted (batch : Batch) : List (DeclarationId × BuilderSpec) :=
  (firstBy Declaration.id batch.declarations).filterMap fun declaration =>
    (declaration.extract batch.catalog).map fun spec => (declaration.id, spec)

/-- **A batch gives the same specifications if it is read undisturbed.** -/
theorem extracted_undisturbed (batch : Batch) : batch.undisturbed.extracted = batch.extracted := by
  change (firstBy Declaration.id (batch.declarations.map Declaration.undisturbed)).filterMap
    (fun declaration => (declaration.extract (batch.catalog.map TypeInfo.undisturbed)).map
      fun spec => (declaration.id, spec)) = _
  rw [firstBy_map (f := Declaration.undisturbed) fun _ => rfl, List.filterMap_map]
  refine congrFun (congrArg List.filterMap (funext fun declaration => ?_)) _
  rw [Function.comp_apply, Declaration.extract_undisturbed]
  rfl

/-- And none of its declarations calls the run off. -/
theorem quiet_undisturbed (batch : Batch) :
    batch.undisturbed.extractionJobs.any Job.cancels = false := by
  refine List.any_eq_false.2 fun job hjob => ?_
  obtain ⟨declaration, hmem, rfl⟩ := List.mem_map.1 hjob
  obtain ⟨original, -, rfl⟩ := List.mem_map.1 (mem_of_mem_firstBy hmem)
  exact ne_true_of_eq_false (Declaration.cancelsExtraction_undisturbed batch.catalog original)

end Batch

end BuilderForge
