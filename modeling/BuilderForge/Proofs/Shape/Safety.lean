import BuilderForge.Emission.Outcome
import BuilderForge.Merge
import BuilderForge.Proofs.Shape.Walk

/-!
# Values that a cache may keep

A record, a variant or a sequence may be kept by a cache exactly if all its
parts may, so optional values, pairs and sequences may be kept exactly if all
that is in them may (`isCacheSafe_option`, `isCacheSafe_pair`,
`isCacheSafe_list`).

A type is safe if a cache may keep all its values (`SafeType`). Texts, truth
values and numbers are safe, and so is every type that is built of safe ones,
up to what the stages of the pipeline produce.
-/

namespace BuilderForge

/-! ## Shapes -/

namespace Shape

variable {typeName name : String} {fields : List (String × Shape)} {items : List Shape}

/-- Fields hold nothing foreign exactly if none of them does. -/
theorem nodesOfFields_eq_nil_iff {index : Nat} :
    nodesOfFields index fields = [] ↔ ∀ field ∈ fields, field.2.isCacheSafe = true := by
  induction fields generalizing index with
  | nil => simp [nodesOfFields]
  | cons field rest ih =>
    rw [nodesOfFields, List.append_eq_nil_iff, List.map_eq_nil_iff, ← isCacheSafe_iff, ih,
      List.forall_mem_cons]

@[simp]
theorem isCacheSafe_primitive : (primitive typeName).isCacheSafe = true :=
  isCacheSafe_iff.2 rfl

@[simp]
theorem isCacheSafe_text : text.isCacheSafe = true :=
  isCacheSafe_iff.2 rfl

@[simp]
theorem isCacheSafe_foreign : (foreign typeName).isCacheSafe = false := by
  rw [← Bool.not_eq_true, isCacheSafe_iff, foreignNodes]
  exact List.cons_ne_nil _ _

@[simp]
theorem isCacheSafe_record : (record typeName fields).isCacheSafe = true ↔
    ∀ field ∈ fields, field.2.isCacheSafe = true := by
  rw [isCacheSafe_iff, foreignNodes, nodesOfFields_eq_nil_iff]

@[simp]
theorem isCacheSafe_variant : (variant typeName name fields).isCacheSafe = true ↔
    ∀ field ∈ fields, field.2.isCacheSafe = true := by
  rw [isCacheSafe_iff, foreignNodes, nodesOfFields_eq_nil_iff]

@[simp]
theorem isCacheSafe_unitVariant : (unitVariant typeName name).isCacheSafe = true :=
  isCacheSafe_variant.2 fun _ h => absurd h List.not_mem_nil

@[simp]
theorem isCacheSafe_sequence : (sequence items).isCacheSafe = true ↔
    ∀ item ∈ items, item.isCacheSafe = true := by
  rw [isCacheSafe_iff, foreignNodes, ← nodesOfFields_mapIdx fun _ => "", nodesOfFields_eq_nil_iff]
  simp only [List.mem_mapIdx, forall_exists_index]
  constructor
  · intro h item hitem
    obtain ⟨index, hindex, rfl⟩ := List.mem_iff_getElem.1 hitem
    exact h _ index hindex rfl
  · rintro h _ index hindex rfl
    exact h _ (List.getElem_mem hindex)

end Shape

/-! ## Values that hold others -/

section Holding

variable {α β : Type} [Structural α] [Structural β]

/-- An optional value may be kept exactly if the value may, if there is one. -/
theorem isCacheSafe_option {value : Option α} :
    (shape value).isCacheSafe = true ↔ ∀ a ∈ value, (shape a).isCacheSafe = true := by
  cases value with
  | none => exact iff_of_true Shape.isCacheSafe_unitVariant fun _ h => by cases h
  | some a =>
    rw [show shape (some a) = .variant "Option" "Some" [("0", shape a)] from rfl]
    simp

/-- A pair may be kept exactly if both its components may. -/
theorem isCacheSafe_pair {pair : α × β} : (shape pair).isCacheSafe = true ↔
    (shape pair.1).isCacheSafe = true ∧ (shape pair.2).isCacheSafe = true := by
  rw [show shape pair = .record "tuple" [("0", shape pair.1), ("1", shape pair.2)] from rfl]
  simp

/-- A sequence may be kept exactly if all its elements may. -/
theorem isCacheSafe_list {items : List α} :
    (shape items).isCacheSafe = true ↔ ∀ a ∈ items, (shape a).isCacheSafe = true := by
  rw [show shape items = .sequence (items.map shape) from rfl, Shape.isCacheSafe_sequence,
    List.forall_mem_map]

end Holding

/-! ## Safe types -/

/-- A type all of whose values a cache may keep. -/
class SafeType (α : Type) [Structural α] : Prop where
  isCacheSafe_shape : ∀ a : α, (shape a).isCacheSafe = true

export SafeType (isCacheSafe_shape)

attribute [simp] isCacheSafe_shape

instance : SafeType String := ⟨fun _ => Shape.isCacheSafe_text⟩

instance : SafeType Bool := ⟨fun _ => Shape.isCacheSafe_primitive⟩

instance : SafeType UInt32 := ⟨fun _ => Shape.isCacheSafe_primitive⟩

instance : SafeType Visibility := ⟨fun _ => Shape.isCacheSafe_unitVariant⟩

instance {α : Type} [Structural α] [SafeType α] : SafeType (List α) :=
  ⟨fun _ => isCacheSafe_list.2 fun a _ => isCacheSafe_shape a⟩

instance : SafeType Member :=
  ⟨fun _ => Shape.isCacheSafe_record.2 (by simp)⟩

instance : SafeType BuilderSpec :=
  ⟨fun _ => Shape.isCacheSafe_record.2 (by simp)⟩

instance : SafeType BuilderKey :=
  ⟨fun _ => Shape.isCacheSafe_record.2 (by simp)⟩

instance : SafeType DeclarationId :=
  ⟨fun _ => Shape.isCacheSafe_record.2 (by simp)⟩

instance : SafeType Diagnostic :=
  ⟨fun _ => Shape.isCacheSafe_record.2 (by simp)⟩

instance : SafeType MergedBuilder :=
  ⟨fun _ => Shape.isCacheSafe_record.2 (by simp)⟩

instance : SafeType EmitOutcome where
  isCacheSafe_shape
    | .generated _ | .failed _ => Shape.isCacheSafe_variant.2 (by simp)

end BuilderForge
