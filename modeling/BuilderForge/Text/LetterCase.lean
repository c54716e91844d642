import BuilderForge.Text.Capitals
import BuilderForge.Text.SmallLetters

/-!
# Letter case — capitals, small letters and small forms

The case of a character is a Unicode property, so all alphabets count: `É`
and `Д` are capitals, `ß` is small, and digits, ideographs and title-case
letters are neither. ASCII letters are decided directly; everything beyond
ASCII is looked up in the tables.
-/

namespace BuilderForge

namespace Text

/-- The Unicode property Uppercase. -/
def isUppercase (c : Char) : Bool :=
  if c.toNat < 128 then c.isUpper else capitalRuns.any (·.contains c.toNat)

/-- The Unicode property Lowercase. -/
def isLowercase (c : Char) : Bool :=
  if c.toNat < 128 then c.isLower else smallRuns.any (·.contains c.toNat)

/-- The small form of a capital letter. The dotted capital `İ` keeps its dot
as a combining mark, so its small form has two characters; every other
letter has one, and a capital without a small form stands for itself. -/
def smallForm (c : Char) : List Char :=
  if c.toNat < 128 then [c.toLower]
  else if c = 'İ' then ['i', '\u0307']
  else match capitalRuns.find? (·.contains c.toNat) with
    | some run => [Char.ofNat (c.toNat + run.shift).toNat]
    | none => [c]

/-- In ASCII the capitals are `A` to `Z`. -/
theorem isUppercase_ascii {c : Char} (h : c.toNat < 128) : isUppercase c = c.isUpper :=
  if_pos h

/-- In ASCII the small letters are `a` to `z`. -/
theorem isLowercase_ascii {c : Char} (h : c.toNat < 128) : isLowercase c = c.isLower :=
  if_pos h

/-- In ASCII a letter has one small form, of one character. -/
theorem smallForm_ascii {c : Char} (h : c.toNat < 128) : smallForm c = [c.toLower] :=
  if_pos h

end Text

end BuilderForge
