/-!
# Fragments of output

Output is put together from fragments: pieces of text, indentation by whole
levels of four spaces, and line ends. A text grows fragment by fragment and
is never cut back.
-/

namespace BuilderForge

/-- The number of spaces to a level of indentation. -/
def indentWidth : Nat := 4

/-- The spaces of `levels` levels of indentation. -/
def indentation (levels : Nat) : String :=
  String.ofList (List.replicate (levels * indentWidth) ' ')

/-- A piece of output. -/
inductive Fragment
  | text (content : String)
  | indent (levels : Nat)
  | newline

namespace Fragment

/-- The text of a fragment. -/
def render : Fragment → String
  | text content => content
  | indent levels => indentation levels
  | newline => "\n"

/-- The output after each of the fragments, `output` being what was there
before. -/
def outputs (output : String) : List Fragment → List String
  | [] => []
  | fragment :: rest => (output ++ fragment.render) :: outputs (output ++ fragment.render) rest

/-- The text of a list of fragments. -/
def renderAll (fragments : List Fragment) : String :=
  String.join (fragments.map render)

end Fragment

/-- No levels, no spaces. -/
@[simp]
theorem indentation_zero : indentation 0 = "" := rfl

/-- Every level takes four characters, each a space. -/
theorem toList_indentation (levels : Nat) :
    (indentation levels).toList = List.replicate (levels * indentWidth) ' ' := by
  simp [indentation]

end BuilderForge
