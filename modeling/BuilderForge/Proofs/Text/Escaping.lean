import BuilderForge.Text.Identifier

/-!
# Words as names

A word that can be escaped is an identifier, and its name is the word itself
or, for a keyword, the word behind a mark that no identifier has
(`escape_eq_some_iff`). So a word stands as it is exactly if it is no keyword
(`escape_eq_self_iff`), the word can be read back from its name
(`escape_injective`), and a name is made of characters that end where the
generated text puts a blank, a colon or a bracket (`isNamePart_of_escape`).
-/

namespace BuilderForge

namespace Text

/-- A character of a name: one that continues an identifier, or the mark of an
escaped keyword. -/
def isNamePart (c : Char) : Bool :=
  isIdentifierPart c || c == '#'

variable {word other name : String}

/-- **When a word gives a name**, and which. -/
theorem escape_eq_some_iff : escape word = some name ↔
    isIdentifier word = true ∧ word ∉ unescapable ∧
      name = if isKeyword word then "r#" ++ word else word := by
  unfold escape
  by_cases hfails : (!isIdentifier word || unescapable.contains word) = true
  · rw [if_pos hfails]
    simp only [Bool.or_eq_true, Bool.not_eq_true', List.contains_iff_mem] at hfails
    constructor
    · rintro ⟨⟩
    · rintro ⟨hidentifier, hescapable, -⟩
      rcases hfails with hfails | hfails
      · rw [hidentifier] at hfails
        cases hfails
      · exact absurd hfails hescapable
  · rw [if_neg hfails]
    simp only [Bool.or_eq_true, Bool.not_eq_true', List.contains_iff_mem, not_or,
      Bool.not_eq_false] at hfails
    rw [← apply_ite some, Option.some.injEq, eq_comm]
    simp only [hfails.1, hfails.2, not_false_eq_true, true_and]

/-- The characters of an identifier can all continue one. -/
theorem isIdentifierPart_of_isIdentifier (h : isIdentifier word = true) {c : Char}
    (hc : c ∈ word.toList) : isIdentifierPart c = true := by
  unfold isIdentifier at h
  split at h
  · cases h
  · next first rest hword =>
    rw [hword] at hc
    simp only [Bool.and_eq_true, List.all_eq_true] at h
    rcases List.mem_cons.1 hc with rfl | hc
    · have hstart := h.1.1
      simp only [isIdentifierStart, Bool.or_eq_true] at hstart
      simp only [isIdentifierPart, Char.isAlphanum, Bool.or_eq_true]
      exact hstart.imp_left .inl
    · exact h.1.2 c hc

/-- No identifier begins like an escaped keyword. -/
theorem ne_append_of_isIdentifier (h : isIdentifier word = true) : word ≠ "r#" ++ other := by
  rintro rfl
  have hmark := isIdentifierPart_of_isIdentifier h (c := '#') (by simp)
  revert hmark
  decide

/-- **A word is its own name** exactly if it is an identifier that is neither a
keyword nor beyond escaping. -/
theorem escape_eq_self_iff : escape word = some word ↔
    isIdentifier word = true ∧ isKeyword word = false ∧ word ∉ unescapable := by
  rw [escape_eq_some_iff]
  constructor
  · rintro ⟨hidentifier, hescapable, hname⟩
    refine ⟨hidentifier, Bool.eq_false_iff.2 fun hkeyword => ?_, hescapable⟩
    rw [if_pos hkeyword] at hname
    exact ne_append_of_isIdentifier hidentifier hname
  · rintro ⟨hidentifier, hkeyword, hescapable⟩
    exact ⟨hidentifier, hescapable, by rw [hkeyword]; rfl⟩

/-- **A name tells its word.** -/
theorem escape_injective (h : escape word = some name) (hother : escape other = some name) :
    word = other := by
  obtain ⟨hword, -, hname⟩ := escape_eq_some_iff.1 h
  obtain ⟨hidentifier, -, hsame⟩ := escape_eq_some_iff.1 hother
  rw [hname] at hsame
  split at hsame <;> split at hsame
  · exact (String.append_right_inj "r#").1 hsame
  · exact absurd hsame.symm (ne_append_of_isIdentifier hidentifier)
  · exact absurd hsame (ne_append_of_isIdentifier hword)
  · exact hsame

/-- **A name is made of name characters.** -/
theorem isNamePart_of_escape (h : escape word = some name) {c : Char} (hc : c ∈ name.toList) :
    isNamePart c = true := by
  obtain ⟨hword, -, rfl⟩ := escape_eq_some_iff.1 h
  have hpart : ∀ c ∈ word.toList, isNamePart c = true := fun c hc => by
    rw [isNamePart, isIdentifierPart_of_isIdentifier hword hc, Bool.true_or]
  split at hc
  · rw [String.toList_append, List.mem_append] at hc
    rcases hc with hmark | hc
    · have hchars : c = 'r' ∨ c = '#' := by simpa using hmark
      rcases hchars with rfl | rfl <;> decide
    · exact hpart c hc
  · exact hpart c hc

end Text

end BuilderForge
