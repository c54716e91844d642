/-!
# Identifiers of the generated text

Generated code names its fields, parameters and methods after the members
of a target type. A word can serve as a name if it is an identifier: an
ASCII letter or underscore, then ASCII letters, digits and underscores, and
not the lone underscore. Keywords are identifiers that have to be escaped
with `r#` before they can be used; a few words cannot even be escaped.
-/

namespace BuilderForge

namespace Text

/-- The keywords that the generated language reserves and lets one escape. -/
def keywords : List String :=
  ["abstract", "as", "async", "await", "become", "box", "break", "const", "continue", "do",
   "dyn", "else", "enum", "extern", "false", "final", "fn", "for", "gen", "if", "impl", "in",
   "let", "loop", "macro", "match", "mod", "move", "mut", "override", "priv", "pub", "ref",
   "return", "static", "struct", "trait", "true", "try", "type", "typeof", "unsafe", "unsized",
   "use", "virtual", "where", "while", "yield"]

/-- The words that can be no name, escaped or not. -/
def unescapable : List String :=
  ["_", "crate", "self", "Self", "super"]

/-- Whether `word` has to be escaped before it can serve as a name. -/
def isKeyword (word : String) : Bool :=
  keywords.contains word

/-- A character that can open an identifier. -/
def isIdentifierStart (c : Char) : Bool :=
  c.isAlpha || c == '_'

/-- A character that can continue an identifier. -/
def isIdentifierPart (c : Char) : Bool :=
  c.isAlphanum || c == '_'

/-- Whether `word` is an identifier; keywords are. -/
def isIdentifier (word : String) : Bool :=
  match word.toList with
  | [] => false
  | first :: rest => isIdentifierStart first && rest.all isIdentifierPart && word != "_"

/-- The name that `word` gives: itself, or its escaped form if it is a
keyword. A word that is no identifier gives none, and neither does one that
cannot be escaped. -/
def escape (word : String) : Option String :=
  if !isIdentifier word || unescapable.contains word then none
  else if isKeyword word then some ("r#" ++ word)
  else some word

end Text

end BuilderForge
