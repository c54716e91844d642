import BuilderForge.Proofs.Shape.Nodes

/-!
# The walk over a shape

The walk keeps what is still to be visited in a list and takes one node at a
time off it. What it reports on a node and everything below it does not
depend on what else is pending (`scan_eq_flatMap`), so it reports what a
recursion on the shape finds.

The walk knows the root by its empty path. No other node has one, for every
step of the way adds a mark to it (`mark_ne_empty`), however the fields and
types are called. So a path begins with the name of the root, and the names
of inner records and variants do not appear (`foreign_nodes_found`).
-/

namespace BuilderForge

namespace Shape

/-! ## Below the root -/

/-- Every step of the way leaves a mark. -/
theorem mark_ne_empty {shape : Shape} {step : String × Shape} (h : step ∈ shape.steps) :
    step.1 ≠ "" := by
  cases shape with
  | primitive | text | foreign => cases h
  | variant _ _ fields | record _ fields =>
    obtain ⟨field, -, rfl⟩ := List.mem_map.1 h
    simp
  | sequence items =>
    obtain ⟨index, hindex, rfl⟩ := List.mem_mapIdx.1 h
    simp

/-- So no path is empty below the root. -/
theorem partsAt_fst_ne_empty {path : String} {shape : Shape} {step : String × Shape}
    (h : step ∈ shape.partsAt path) : step.1 ≠ "" := by
  rw [partsAt_eq] at h
  obtain ⟨below, hbelow, rfl⟩ := List.mem_map.1 h
  have hmark := mark_ne_empty hbelow
  simp [hmark]

/-- The entry for a foreign node below a node with the given path. -/
def entryBelow (path : String) (shape : Shape) (node : List Nat × String) : String :=
  path ++ shape.trail node.1 ++ ": " ++ node.2

/-- The entries for the foreign nodes of a part are entries for foreign nodes
of the whole. -/
theorem map_entryBelow_nodesOfFields (path : String) (shape : Shape)
    (before after : List (String × Shape)) (h : shape.steps = before ++ after) :
    (nodesOfFields before.length after).map (entryBelow path shape) =
      after.flatMap fun step => step.2.foreignNodes.map (entryBelow (path ++ step.1) step.2) := by
  induction after generalizing before with
  | nil => rfl
  | cons step rest ih =>
    obtain ⟨mark, part⟩ := step
    have hlater := ih (before ++ [(mark, part)]) (by simpa using h)
    rw [List.length_append, List.length_singleton] at hlater
    have hstep : shape.steps[before.length]? = some (mark, part) := by
      rw [h]
      simp
    have hentry : ∀ node ∈ part.foreignNodes,
        entryBelow path shape (before.length :: node.1, node.2) =
          entryBelow (path ++ mark) part node := by
      intro node _
      have hmarks : path ++ (mark ++ part.trail node.1) = path ++ mark ++ part.trail node.1 :=
        String.append_assoc.symm
      rw [entryBelow, trail, hstep, hmarks, entryBelow]
    rw [nodesOfFields, List.map_append, List.map_map, List.flatMap_cons, hlater]
    congr 1
    exact List.map_congr_left hentry

/-- **One node of the walk**, below the root: the report on it, and the
entries for what is below its parts, are the entries for what is below it. -/
theorem reportAt_append_flatMap {path : String} (hpath : path ≠ "") (shape : Shape) :
    (shape.reportAt path ++ (shape.partsAt path).flatMap fun step =>
        step.2.foreignNodes.map (entryBelow step.1 step.2)) =
      shape.foreignNodes.map (entryBelow path shape) := by
  have hparts := map_entryBelow_nodesOfFields path shape [] shape.steps rfl
  rw [partsAt_eq, List.flatMap_map, foreignNodes_eq]
  simp only [ownerPath, if_neg hpath]
  cases shape with
  | primitive | text => rfl
  | foreign typeName => simp [reportAt, steps, entryBelow, trail, hpath]
  | variant | record | sequence => exact hparts.symm

/-- **What the walk reports on a node does not depend on what is pending**:
below the root, it reports what the recursion finds, node by node. -/
theorem scan_eq_flatMap {pending : List (String × Shape)} (h : ∀ step ∈ pending, step.1 ≠ "") :
    scan pending =
      pending.flatMap fun step => step.2.foreignNodes.map (entryBelow step.1 step.2) := by
  induction pending using scan.induct with
  | case1 =>
    rw [scan]
    rfl
  | case2 path shape rest ih =>
    rw [List.forall_mem_cons] at h
    have hnext : ∀ step ∈ shape.partsAt path ++ rest, step.1 ≠ "" := by
      intro step hstep
      exact (List.mem_append.1 hstep).elim partsAt_fst_ne_empty (h.2 step)
    rw [scan, ih hnext, List.flatMap_append, ← List.append_assoc, reportAt_append_flatMap h.1,
      List.flatMap_cons]

/-! ## From the root -/

/-- **The walk from the root** reports the foreign nodes by their paths. -/
theorem foreignPaths_eq_map (shape : Shape) :
    shape.foreignPaths = shape.foreignNodes.map fun node => shape.pathOf node.1 node.2 := by
  have hpath : ∀ node ∈ nodesOfFields 0 shape.steps,
      entryBelow shape.ownName shape node = shape.pathOf node.1 node.2 := by
    rintro ⟨address, name⟩ hnode
    obtain ⟨index, step, rest, -, rfl, -⟩ := mem_nodesOfFields.1 hnode
    exact (if_neg (List.cons_ne_nil _ _)).symm
  have hparts := map_entryBelow_nodesOfFields shape.ownName shape [] shape.steps rfl
  rw [List.length_nil, List.map_congr_left hpath] at hparts
  have hbelow : ∀ step ∈ shape.partsAt "", step.1 ≠ "" := fun _ => partsAt_fst_ne_empty
  rw [foreignPaths, scan, List.append_nil, scan_eq_flatMap hbelow, partsAt_eq, List.flatMap_map,
    foreignNodes_eq]
  cases shape with
  | primitive | text | foreign => rfl
  | variant | record | sequence => exact hparts.symm

/-- A cache may keep a shape exactly if the recursion finds nothing foreign. -/
theorem isCacheSafe_iff {shape : Shape} : shape.isCacheSafe = true ↔ shape.foreignNodes = [] := by
  rw [isCacheSafe, foreignPaths_eq_map, List.isEmpty_iff, List.map_eq_nil_iff]

/-- **The foreign nodes are found.** The walk reports the foreign nodes that
the recursion on the shape lists, one path for each: the bare name of the
root, or the marks of the way from the root behind the name that the root has
as a record or variant, and the name of the node. Listed are exactly the
foreign nodes, in the order of their addresses, so each once, from left to
right and depth first; and a cache may keep the shape exactly if it has none. -/
theorem foreign_nodes_found (shape : Shape) :
    shape.foreignPaths = shape.foreignNodes.map (fun node => shape.pathOf node.1 node.2) ∧
      (∀ address name, (address, name) ∈ shape.foreignNodes ↔
        shape.node? address = some (.foreign name)) ∧
      (shape.foreignNodes.Pairwise fun node other => node.1 < other.1) ∧
      (shape.isCacheSafe = true ↔
        ∀ address name, shape.node? address ≠ some (.foreign name)) := by
  refine ⟨shape.foreignPaths_eq_map, fun _ _ => mem_foreignNodes, shape.pairwise_foreignNodes, ?_⟩
  rw [isCacheSafe_iff, List.eq_nil_iff_forall_not_mem, Prod.forall]
  exact forall₂_congr fun _ _ => not_congr mem_foreignNodes

end Shape

end BuilderForge
