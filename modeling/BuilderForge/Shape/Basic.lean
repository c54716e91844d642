/-!
# Shapes of values

A `Shape` is the outline of a value: which records, variants and sequences
it is built of, and where it holds something foreign, that is, something
that refers to state outside the value itself. Values kept by a cache must
hold nothing foreign, and their shapes are walked to make sure.
-/

namespace BuilderForge

/-- The outline of a value. -/
inductive Shape
  /-- A number, a truth value or a character, with the name of its type. -/
  | primitive (typeName : String)
  /-- A text. -/
  | text
  /-- One variant of an enumeration, with the fields of that variant. -/
  | variant (typeName : String) (name : String) (fields : List (String × Shape))
  /-- A sequence and its elements. -/
  | sequence (items : List Shape)
  /-- A record and its fields. -/
  | record (typeName : String) (fields : List (String × Shape))
  /-- Anything that may refer to state outside the value. -/
  | foreign (typeName : String)

namespace Shape

/-- A variant without fields. -/
def unitVariant (typeName name : String) : Shape :=
  variant typeName name []

mutual

/-- The number of nodes of a shape. -/
def size : Shape → Nat
  | primitive _ | text | foreign _ => 1
  | variant _ _ fields => 1 + sizeFields fields
  | sequence items => 1 + sizeItems items
  | record _ fields => 1 + sizeFields fields

/-- The number of nodes of the elements of a sequence. -/
def sizeItems : List Shape → Nat
  | [] => 0
  | item :: rest => item.size + sizeItems rest

/-- The number of nodes of the fields of a record or variant. -/
def sizeFields : List (String × Shape) → Nat
  | [] => 0
  | (_, shape) :: rest => shape.size + sizeFields rest

end

theorem sizeFields_append (first second : List (String × Shape)) :
    sizeFields (first ++ second) = sizeFields first + sizeFields second := by
  induction first with
  | nil => simp [sizeFields]
  | cons field rest ih => simp [sizeFields, ih, Nat.add_assoc]

end Shape

end BuilderForge
