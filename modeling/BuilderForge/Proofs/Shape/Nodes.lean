import BuilderForge.Shape.Foreign
import Mathlib.Data.List.Basic
import Mathlib.Order.Basic

/-!
# The nodes of a shape

A node of a shape has an address: the numbers of the parts that lead to it
from the root (`Shape.node?`). On the way, every part adds its mark to a path,
`.field` or `[index]` (`Shape.steps`, `Shape.trail`). Names of fields may
repeat and may be empty, so paths need not tell nodes apart; addresses do.

The foreign nodes are listed by a recursion on the shape
(`Shape.foreignNodes`). It finds exactly the addresses at which something
foreign stands (`mem_foreignNodes`), and lists them in ascending order
(`pairwise_foreignNodes`): addresses are compared place by place, so this is
from left to right, and a node before what is below it.
-/

namespace BuilderForge

namespace Shape

/-! ## Addresses -/

/-- The name that the root of a shape lends to the paths below it. -/
def ownName : Shape → String
  | primitive _ | text | sequence _ | foreign _ => ""
  | variant typeName name _ => typeName ++ "::" ++ name
  | record typeName _ => typeName

/-- The parts of a node, from left to right, each with the mark that it adds
to a path. -/
def steps : Shape → List (String × Shape)
  | primitive _ | text | foreign _ => []
  | variant _ _ fields | record _ fields => fields.map fun field => ("." ++ field.1, field.2)
  | sequence items => items.mapIdx fun index item => ("[" ++ toString index ++ "]", item)

/-- The node at an address. -/
def node? : Shape → List Nat → Option Shape
  | shape, [] => some shape
  | shape, index :: address => shape.steps[index]?.bind fun step => step.2.node? address

/-- The marks on the way to an address. -/
def trail : Shape → List Nat → String
  | _, [] => ""
  | shape, index :: address =>
    match shape.steps[index]? with
    | some (mark, part) => mark ++ part.trail address
    | none => ""

/-- The path of a foreign node: its bare name if it is the root, otherwise
its name behind the marks that lead to it from the root. -/
def pathOf (shape : Shape) (address : List Nat) (name : String) : String :=
  if address = [] then name else shape.ownName ++ shape.trail address ++ ": " ++ name

mutual

/-- The foreign nodes of a shape, from left to right, with their addresses
and names. -/
def foreignNodes : Shape → List (List Nat × String)
  | primitive _ | text => []
  | foreign typeName => [([], typeName)]
  | variant _ _ fields | record _ fields => nodesOfFields 0 fields
  | sequence items => nodesOfItems 0 items

/-- The foreign nodes of the elements of a sequence from an index on. -/
def nodesOfItems (index : Nat) : List Shape → List (List Nat × String)
  | [] => []
  | item :: rest =>
    (item.foreignNodes.map fun node => (index :: node.1, node.2)) ++ nodesOfItems (index + 1) rest

/-- The foreign nodes of the fields of a record or variant from an index on. -/
def nodesOfFields (index : Nat) : List (String × Shape) → List (List Nat × String)
  | [] => []
  | (_, shape) :: rest =>
    (shape.foreignNodes.map fun node => (index :: node.1, node.2)) ++
      nodesOfFields (index + 1) rest

end

/-- The foreign nodes do not depend on how the fields are called. -/
theorem nodesOfFields_map (rename : String → String) (index : Nat)
    (fields : List (String × Shape)) :
    nodesOfFields index (fields.map fun field => (rename field.1, field.2)) =
      nodesOfFields index fields := by
  induction fields generalizing index with
  | nil => rfl
  | cons field rest ih => rw [List.map_cons, nodesOfFields, nodesOfFields, ih]

/-- Elements have the foreign nodes of fields in their places. -/
theorem nodesOfFields_mapIdx (mark : Nat → String) (index : Nat) (items : List Shape) :
    nodesOfFields index (items.mapIdx fun n item => (mark n, item)) =
      nodesOfItems index items := by
  induction items generalizing mark index with
  | nil => rfl
  | cons item rest ih =>
    rw [List.mapIdx_cons, nodesOfFields, nodesOfItems, ih fun n => mark (n + 1)]

/-- **The foreign nodes of a shape** are the shape, if it is foreign itself,
and those of its parts. -/
theorem foreignNodes_eq (shape : Shape) :
    shape.foreignNodes = match shape with
      | foreign typeName => [([], typeName)]
      | _ => nodesOfFields 0 shape.steps := by
  cases shape with
  | primitive | text | foreign => rfl
  | variant _ _ fields => exact (nodesOfFields_map _ 0 fields).symm
  | record _ fields => exact (nodesOfFields_map _ 0 fields).symm
  | sequence items => exact (nodesOfFields_mapIdx _ 0 items).symm

/-! ## Induction on the parts -/

/-- The walk visits the parts, each behind the path of the node and its own
mark. -/
theorem partsAt_eq (path : String) (shape : Shape) : shape.partsAt path =
    shape.steps.map fun step => (ownerPath path shape.ownName ++ step.1, step.2) := by
  cases shape with
  | primitive | text | foreign => rfl
  | variant _ _ fields | record _ fields =>
    rw [partsAt, fieldsAt, steps, List.map_map]
    exact List.map_congr_left fun field _ => by
      rw [Function.comp_apply, ownName, String.append_assoc]
  | sequence items =>
    have howner : ownerPath path "" = path := by
      unfold ownerPath
      split
      · next h => exact h.symm
      · rfl
    rw [partsAt, itemsAt, steps, ownName, howner]
    simp [List.mapIdx_eq_zipIdx_map, String.append_assoc]

/-- A field is no larger than all fields together. -/
theorem size_le_of_mem {fields : List (String × Shape)} {name : String} {part : Shape}
    (h : (name, part) ∈ fields) : part.size ≤ sizeFields fields := by
  induction fields with
  | nil => cases h
  | cons field rest ih =>
    obtain ⟨label, first⟩ := field
    rw [sizeFields]
    rcases List.mem_cons.1 h with heq | hrest
    · obtain ⟨rfl, rfl⟩ := Prod.mk.inj heq
      omega
    · have hle := ih hrest
      omega

/-- A part is smaller than what it is a part of. -/
theorem size_lt_of_mem_steps {shape : Shape} {step : String × Shape} (h : step ∈ shape.steps) :
    step.2.size < shape.size := by
  have hmem : (ownerPath "" shape.ownName ++ step.1, step.2) ∈ shape.partsAt "" := by
    rw [partsAt_eq]
    exact List.mem_map.2 ⟨step, h, rfl⟩
  have hle := size_le_of_mem hmem
  have hsize := sizeFields_partsAt "" shape
  omega

/-- **Induction on the parts**: what holds of a shape once it holds of all its
parts holds of every shape. -/
theorem induction_on_steps {motive : Shape → Prop}
    (ih : ∀ shape, (∀ step ∈ shape.steps, motive step.2) → motive shape) (shape : Shape) :
    motive shape :=
  ih shape fun step _ => induction_on_steps ih step.2
  termination_by shape.size
  decreasing_by exact size_lt_of_mem_steps ‹_›

/-! ## Where foreign nodes stand -/

/-- A foreign node of the fields is one of a field, behind the field's index. -/
theorem mem_nodesOfFields {index : Nat} {fields : List (String × Shape)} {address : List Nat}
    {name : String} : (address, name) ∈ nodesOfFields index fields ↔
      ∃ n field rest, fields[n]? = some field ∧ address = (index + n) :: rest ∧
        (rest, name) ∈ field.2.foreignNodes := by
  induction fields generalizing index with
  | nil => simp [nodesOfFields]
  | cons field rest ih =>
    rw [nodesOfFields, List.mem_append, ih, List.mem_map]
    constructor
    · rintro (⟨⟨below, _⟩, hmem, heq⟩ | ⟨n, later, below, hlater, rfl, hmem⟩)
      · obtain ⟨rfl, rfl⟩ := Prod.mk.inj heq
        exact ⟨0, field, below, rfl, rfl, hmem⟩
      · exact ⟨n + 1, later, below, hlater, by rw [Nat.add_right_comm, Nat.add_assoc], hmem⟩
    · rintro ⟨_ | n, later, below, hlater, rfl, hmem⟩
      · obtain rfl := Option.some.inj hlater
        exact .inl ⟨(below, name), hmem, rfl⟩
      · exact .inr ⟨n, later, below, hlater, by rw [Nat.add_right_comm, Nat.add_assoc], hmem⟩

/-- **The foreign nodes are found where they stand**: listed are exactly the
addresses of foreign nodes, with their names. -/
theorem mem_foreignNodes {shape : Shape} {address : List Nat} {name : String} :
    (address, name) ∈ shape.foreignNodes ↔ shape.node? address = some (.foreign name) := by
  induction address generalizing shape with
  | nil =>
    rw [foreignNodes_eq, node?]
    cases shape <;> simp [mem_nodesOfFields, eq_comm]
  | cons index rest ih =>
    rw [foreignNodes_eq, node?]
    cases shape with
    | primitive | text | foreign => simp [steps, nodesOfFields]
    | variant | record | sequence =>
      simp only [mem_nodesOfFields, Option.bind_eq_some_iff, Nat.zero_add, List.cons.injEq]
      constructor
      · rintro ⟨n, step, below, hstep, ⟨rfl, rfl⟩, hnode⟩
        exact ⟨step, hstep, ih.1 hnode⟩
      · rintro ⟨step, hstep, hnode⟩
        exact ⟨index, step, rest, hstep, ⟨rfl, rfl⟩, ih.2 hnode⟩

/-- The foreign nodes of parts in ascending order are in ascending order. -/
theorem pairwise_nodesOfFields {fields : List (String × Shape)} (index : Nat)
    (h : ∀ field ∈ fields, field.2.foreignNodes.Pairwise fun node other => node.1 < other.1) :
    (nodesOfFields index fields).Pairwise fun node other => node.1 < other.1 := by
  induction fields generalizing index with
  | nil => exact .nil
  | cons field rest ih =>
    rw [List.forall_mem_cons] at h
    rw [nodesOfFields, List.pairwise_append]
    refine ⟨List.pairwise_map.2 (h.1.imp fun hlt => List.cons_lt_cons_iff.2 (.inr ⟨rfl, hlt⟩)),
      ih (index + 1) h.2, ?_⟩
    rintro _ hnode ⟨_, _⟩ hlater
    obtain ⟨⟨below, name⟩, -, rfl⟩ := List.mem_map.1 hnode
    obtain ⟨n, -, -, -, rfl, -⟩ := mem_nodesOfFields.1 hlater
    exact List.cons_lt_cons_iff.2 (.inl (by omega))

/-- **The foreign nodes are listed in ascending order**, each once. -/
theorem pairwise_foreignNodes (shape : Shape) :
    shape.foreignNodes.Pairwise fun node other => node.1 < other.1 := by
  induction shape using induction_on_steps with
  | ih shape ihparts =>
    rw [foreignNodes_eq]
    cases shape with
    | primitive | text | foreign => simp [steps, nodesOfFields]
    | variant | record | sequence => exact pairwise_nodesOfFields 0 ihparts

end Shape

end BuilderForge
