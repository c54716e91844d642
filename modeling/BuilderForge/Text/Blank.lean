/-!
# Blank text

A name is blank when it shows nothing: when it is empty or all its
characters are white space, by the Unicode property White_Space.
-/

namespace BuilderForge

namespace Text

/-- The Unicode property White_Space: the ASCII controls from tab to
carriage return, the space, the next-line control, the no-break space and
the spaces and separators of the other blocks. -/
def isSpace (c : Char) : Bool :=
  let code := c.toNat
  (0x9 ≤ code && code ≤ 0xD) || code == 0x20 || code == 0x85 || code == 0xA0 ||
    code == 0x1680 || (0x2000 ≤ code && code ≤ 0x200A) || code == 0x2028 || code == 0x2029 ||
    code == 0x202F || code == 0x205F || code == 0x3000

/-- Whether a text has no character but white space. -/
def isBlank (text : String) : Bool :=
  text.toList.all isSpace

/-- A text is not blank exactly if some character of it shows. -/
theorem isBlank_eq_false_iff {text : String} :
    isBlank text = false ↔ ∃ c ∈ text.toList, isSpace c = false := by
  simp [isBlank]

end Text

end BuilderForge
