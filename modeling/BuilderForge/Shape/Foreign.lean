import BuilderForge.Shape.Basic

/-!
# The foreign nodes of a shape

`Shape.foreignPaths` says where a shape holds something foreign, one path
for each such node, from left to right. The walk keeps the nodes still to be
visited in a list, each with the path that leads to it, so no nesting is too
deep for it; it ends because every step takes one node off that list.

Paths start at the name of the root and go on with `.field` and `[index]`;
the names of inner records and variants do not appear.
-/

namespace BuilderForge

namespace Shape

/-- The path of the fields of a node: the node's own path, or its name if it
is the root. -/
def ownerPath (path name : String) : String :=
  if path = "" then name else path

/-- The fields of a node with the paths that lead to them. -/
def fieldsAt (owner : String) (fields : List (String × Shape)) : List (String × Shape) :=
  fields.map fun field => (owner ++ "." ++ field.1, field.2)

/-- The elements of a sequence with the paths that lead to them. -/
def itemsAt (path : String) (items : List Shape) : List (String × Shape) :=
  items.mapIdx fun index item => (path ++ "[" ++ toString index ++ "]", item)

/-- Renaming fields keeps their size. -/
theorem sizeFields_fieldsAt (owner : String) (fields : List (String × Shape)) :
    sizeFields (fieldsAt owner fields) = sizeFields fields := by
  induction fields with
  | nil => rfl
  | cons field rest ih =>
    rw [fieldsAt, List.map_cons, sizeFields, sizeFields]
    exact congrArg (field.2.size + ·) ih

/-- Elements have the same size whatever paths lead to them. -/
theorem sizeFields_mapIdx (path : Nat → String) (items : List Shape) :
    sizeFields (items.mapIdx fun index item => (path index, item)) = sizeItems items := by
  induction items generalizing path with
  | nil => rfl
  | cons item rest ih =>
    rw [List.mapIdx_cons, sizeFields, sizeItems]
    exact congrArg (item.size + ·) (ih fun index => path (index + 1))

/-- The parts of a node, from left to right, with the paths that lead to
them. -/
def partsAt (path : String) : Shape → List (String × Shape)
  | primitive _ | text | foreign _ => []
  | variant typeName name fields => fieldsAt (ownerPath path (typeName ++ "::" ++ name)) fields
  | sequence items => itemsAt path items
  | record typeName fields => fieldsAt (ownerPath path typeName) fields

/-- The report on a node itself: its name behind its path if it is foreign,
nothing otherwise. -/
def reportAt (path : String) : Shape → List String
  | foreign typeName => [if path = "" then typeName else path ++ ": " ++ typeName]
  | _ => []

/-- A node and its parts make up its size. -/
theorem sizeFields_partsAt (path : String) (shape : Shape) :
    sizeFields (shape.partsAt path) + 1 = shape.size := by
  cases shape with
  | primitive | text | foreign => rfl
  | variant _ _ fields => rw [partsAt, sizeFields_fieldsAt, size, Nat.add_comm]
  | sequence items => rw [partsAt, itemsAt, sizeFields_mapIdx, size, Nat.add_comm]
  | record _ fields => rw [partsAt, sizeFields_fieldsAt, size, Nat.add_comm]

/-- The reports on the pending nodes and on everything below them, in order. -/
def scan : List (String × Shape) → List String
  | [] => []
  | (path, shape) :: rest => shape.reportAt path ++ scan (shape.partsAt path ++ rest)
  termination_by pending => sizeFields pending
  decreasing_by
    have h := sizeFields_partsAt path shape
    rw [sizeFields_append, sizeFields]
    omega

/-- The paths of the foreign nodes, from left to right. -/
def foreignPaths (shape : Shape) : List String :=
  scan [("", shape)]

/-- Whether a cache may keep values of this shape. -/
def isCacheSafe (shape : Shape) : Bool :=
  shape.foreignPaths.isEmpty

end Shape

end BuilderForge
