import BuilderForge.Text.LetterCase

/-!
# Snake case

Members are named as their target type writes them (`MinimumPrice`,
`URLPath`, `tags`); the generated fields and methods use the snake-case
form (`minimum_price`, `url_path`, `tags`). Capitals turn small, and an
underscore goes before each capital that begins a word.
-/

namespace BuilderForge

namespace Text

/-- Whether a capital begins a word, given the characters on either side of
it. It does after a small letter, after an ASCII digit, and at the end of a
row of capitals when a small letter follows, as the `P` of `URLPath`. At
the start of the name there is no word to part it from. -/
def beginsWord (previous next : Option Char) : Bool :=
  match previous with
  | none => false
  | some p => isLowercase p || p.isDigit || (isUppercase p && next.any isLowercase)

/-- The snake-case form of a piece of a name that follows `previous`. -/
def snakeFrom (previous : Option Char) : List Char → List Char
  | [] => []
  | c :: rest =>
    if isUppercase c then
      (if beginsWord previous rest.head? then ['_'] else []) ++
        smallForm c ++ snakeFrom (some c) rest
    else c :: snakeFrom (some c) rest

/-- The snake-case form of a name. -/
def snakeCase (name : String) : String :=
  String.ofList (snakeFrom none name.toList)

/-- A piece without capitals is in snake case already. -/
theorem snakeFrom_eq_self {cs : List Char} (h : ∀ c ∈ cs, isUppercase c = false)
    (previous : Option Char) : snakeFrom previous cs = cs := by
  induction cs generalizing previous with
  | nil => rfl
  | cons c rest ih =>
    have hc : isUppercase c = false := h c (by simp)
    have hrest : ∀ d ∈ rest, isUppercase d = false := fun d hd => h d (by simp [hd])
    simp [snakeFrom, hc, ih hrest]

end Text

end BuilderForge
