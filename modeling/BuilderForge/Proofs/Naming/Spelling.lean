import BuilderForge.Naming.Base

/-!
# The spelling of a namespace

One path can be spelled in many ways: dots and double colons part its
segments, as many of them as one likes and in any mixture, and more may stand
ahead of the first segment and behind the last one. A `Spelling` is a path
together with the separators of a namespace that spells it.

None of the separators shows in an identifier (`baseIdentifier_spelling`).
Those at the front of a namespace change nothing (`segments_gap_append`), and
the one behind a segment ends it (`segments_segment_append`).

Namespaces are parted in one pass. To part them at their double colons first,
and each part at its dots, comes to the same (`split_eq_flatMap`).
-/

namespace BuilderForge

namespace Naming

variable {c : Char} {segment rest first : List Char} {others : List (List Char)}

/-- A character that begins no separator goes to the segment behind it. -/
theorem split_cons (hdot : c ≠ '.') (hcolons : ∀ more, c = ':' → rest ≠ ':' :: more)
    (h : split rest = first :: others) : split (c :: rest) = (c :: first) :: others := by
  rw [split, h]
  · exact fun more hc hrest => hcolons more hc hrest
  · exact hdot

/-! ## One pass and two -/

/-- The parts of a path between its double colons, empty ones included. -/
def splitAtColons : List Char → List (List Char)
  | [] => [[]]
  | ':' :: ':' :: rest => [] :: splitAtColons rest
  | c :: rest =>
    match splitAtColons rest with
    | part :: parts => (c :: part) :: parts
    | [] => [[c]]

theorem splitAtColons_ne_nil (path : List Char) : splitAtColons path ≠ [] := by
  fun_cases splitAtColons path <;> exact List.cons_ne_nil _ _

/-- **Which separators are looked for first makes no difference**, for a dot
is no half of a double colon. -/
theorem split_eq_flatMap (path : List Char) :
    split path = (splitAtColons path).flatMap (List.splitOn '.') := by
  fun_induction splitAtColons path with
  | case1 => rfl
  | case2 rest ih =>
    rw [split, ih, List.flatMap_cons, List.splitOn_nil]
    rfl
  | case3 c rest hcolons part parts hparts ih =>
    rw [hparts, List.flatMap_cons] at ih
    rw [List.flatMap_cons, List.splitOn_cons_eq_if_modifyHead]
    by_cases hdot : c = '.'
    · subst hdot
      rw [split, ih]
      rfl
    · obtain ⟨first, more, hfirst⟩ := List.exists_cons_of_ne_nil (List.splitOn_ne_nil '.' part)
      rw [hfirst, List.cons_append] at ih
      rw [split_cons hdot (fun more hc hrest => hcolons more hc hrest) ih, hfirst,
        if_neg (by simpa using hdot)]
      rfl
  | case4 c rest hcolons hnone => exact absurd hnone (splitAtColons_ne_nil rest)

/-! ## Spellings -/

/-- What parts the segments of a path. -/
inductive Separator
  | dot
  | colons
  deriving DecidableEq

/-- A separator as namespaces have it. -/
def Separator.text : Separator → String
  | dot => "."
  | colons => "::"

/-- Separators, one behind the other. -/
def gap (separators : List Separator) : String :=
  String.join (separators.map Separator.text)

@[simp]
theorem gap_nil : gap [] = "" := rfl

@[simp]
theorem gap_cons (separator : Separator) (more : List Separator) :
    gap (separator :: more) = separator.text ++ gap more :=
  String.join_cons

/-- A segment of a path, which is not empty and has no part of a separator. -/
structure Segment where
  text : String
  ne_empty : text ≠ ""
  dot_notMem : '.' ∉ text.toList
  colon_notMem : ':' ∉ text.toList

/-- A path, and the separators of a namespace that spells it. -/
structure Spelling where
  /-- The separators ahead of the first segment. -/
  front : List Separator
  /-- The segments, each with the separators behind it. -/
  pieces : List (Segment × List Separator)
  /-- Only behind the last segment there may be none. -/
  parted : ∀ piece ∈ pieces.dropLast, piece.2 ≠ []

namespace Spelling

/-- The segments of the path. -/
def path (spelling : Spelling) : List String :=
  spelling.pieces.map fun piece => piece.1.text

/-- The namespace. -/
def text (spelling : Spelling) : String :=
  gap spelling.front ++ String.join (spelling.pieces.map fun piece => piece.1.text ++ gap piece.2)

end Spelling

/-! ## What separators do -/

/-- What has no part of a separator goes to the segment behind it. -/
theorem split_append (hdot : '.' ∉ segment) (hcolon : ':' ∉ segment)
    (h : split rest = first :: others) :
    split (segment ++ rest) = (segment ++ first) :: others := by
  induction segment with
  | nil => exact h
  | cons c cs ih =>
    simp only [List.mem_cons, not_or] at hdot hcolon
    exact split_cons (Ne.symm hdot.1) (fun _ hc _ => hcolon.1 hc.symm) (ih hdot.2 hcolon.2)

/-- A separator ends what stands ahead of it. -/
theorem split_separator_append (separator : Separator) (scope : String) :
    split (separator.text ++ scope).toList = [] :: split scope.toList := by
  cases separator <;> simp [Separator.text, split]

/-- A separator at the front of a namespace changes nothing, -/
theorem segments_separator_append (separator : Separator) (scope : String) :
    segments (separator.text ++ scope) = segments scope := by
  rw [segments, split_separator_append]
  rfl

/-- and neither do many of them. -/
theorem segments_gap_append (separators : List Separator) (scope : String) :
    segments (gap separators ++ scope) = segments scope := by
  induction separators with
  | nil => rw [gap_nil, String.empty_append]
  | cons separator more ih =>
    rw [gap_cons, String.append_assoc, segments_separator_append, ih]

/-- **A separator ends the segment** ahead of it. -/
theorem segments_segment_append (segment : Segment) (separator : Separator) (scope : String) :
    segments (segment.text ++ (separator.text ++ scope)) =
      segment.text.toList :: segments scope := by
  have hsplit := split_append segment.dot_notMem segment.colon_notMem
    (split_separator_append separator scope)
  rw [List.append_nil, ← String.toList_append] at hsplit
  rw [segments, hsplit, List.filter_cons_of_pos (by simp [segment.ne_empty]), segments]

/-- And so does the end of the namespace. -/
theorem segments_segment (segment : Segment) : segments segment.text = [segment.text.toList] := by
  have hsplit : split (segment.text.toList ++ []) = _ :=
    split_append segment.dot_notMem segment.colon_notMem rfl
  rw [List.append_nil] at hsplit
  rw [segments, hsplit, List.filter_cons_of_pos (by simp [segment.ne_empty]), List.filter_nil]

/-! ## Identifiers -/

/-- The segments of a namespace are those of the path that it spells. -/
theorem segments_pieces {pieces : List (Segment × List Separator)}
    (h : ∀ piece ∈ pieces.dropLast, piece.2 ≠ []) :
    segments (String.join (pieces.map fun piece => piece.1.text ++ gap piece.2)) =
      pieces.map fun piece => piece.1.text.toList := by
  induction pieces with
  | nil => rfl
  | cons piece later ih =>
    obtain ⟨segment, behind⟩ := piece
    rw [List.map_cons, List.map_cons, String.join_cons, String.append_assoc]
    cases behind with
    | nil =>
      -- no separator: this is the last segment
      cases later with
      | nil => simpa using segments_segment segment
      | cons next _ => exact absurd rfl (h (segment, []) (by simp))
    | cons separator more =>
      have hlater : ∀ piece ∈ later.dropLast, piece.2 ≠ [] := fun piece hpiece =>
        h piece (by cases later with
          | nil => cases hpiece
          | cons next _ => exact List.mem_cons_of_mem _ hpiece)
      rw [gap_cons, String.append_assoc, segments_segment_append, segments_gap_append, ih hlater]

/-- **The spelling of a namespace does not show**: the base identifier is the
segments of the path, each followed by an underscore, and the name. -/
theorem baseIdentifier_spelling (spelling : Spelling) (name : String) :
    baseIdentifier spelling.text name =
      String.join (spelling.path.map (· ++ "_")) ++ name := by
  have hsegments : segments spelling.text = spelling.path.map String.toList := by
    rw [Spelling.text, segments_gap_append, segments_pieces spelling.parted, Spelling.path,
      List.map_map]
    rfl
  have hunderscored : String.ofList (underscored (segments spelling.text)) =
      String.join (spelling.path.map (· ++ "_")) := by
    rw [← String.toList_inj, String.toList_ofList, String.toList_join, hsegments, underscored,
      List.flatMap_map, List.flatMap_map]
    simp only [String.toList_append]
    rfl
  rw [baseIdentifier, hunderscored]

/-- A path of two segments, with separators of both kinds around them. -/
theorem baseIdentifier_spelling_of_mixture :
    baseIdentifier "::a..b.::" "Builder" = "a_b_Builder" :=
  baseIdentifier_spelling
    { front := [.colons]
      pieces := [(⟨"a", by decide, by decide, by decide⟩, [.dot, .dot]),
        (⟨"b", by decide, by decide, by decide⟩, [.dot, .colons])]
      parted := by decide }
    "Builder"

end Naming

end BuilderForge
