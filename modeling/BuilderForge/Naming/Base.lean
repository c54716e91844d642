/-!
# Base identifiers

The identifier of a builder's artifact is derived from the namespace and
the name of the builder. A namespace is a path of segments, parted by dots
or by double colons; how it is parted makes no difference, and neither do
empty segments. A single colon is part of its segment.
-/

namespace BuilderForge

namespace Naming

/-- The segments of a path, from left to right, empty ones included. A
double colon parts as soon as both its colons are read. -/
def split : List Char → List (List Char)
  | [] => [[]]
  | ':' :: ':' :: rest => [] :: split rest
  | '.' :: rest => [] :: split rest
  | c :: rest =>
    match split rest with
    | segment :: segments => (c :: segment) :: segments
    | [] => [[c]]

/-- The segments of a namespace that are not empty. -/
def segments (scope : String) : List (List Char) :=
  (split scope.toList).filter fun segment => !segment.isEmpty

/-- Segments, each followed by an underscore. -/
def underscored (segments : List (List Char)) : List Char :=
  segments.flatMap fun segment => segment ++ ['_']

/-- The identifier that a builder's artifact has unless others claim it:
the segments of the namespace, each followed by an underscore, and the name. -/
def baseIdentifier (scope name : String) : String :=
  String.ofList (underscored (segments scope)) ++ name

/-- At the root the name alone is the identifier. -/
theorem baseIdentifier_root (name : String) : baseIdentifier "" name = name := by
  simp [baseIdentifier, segments, split, underscored]

end Naming

end BuilderForge
