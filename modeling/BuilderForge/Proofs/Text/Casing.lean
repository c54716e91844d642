import BuilderForge.Text.SnakeCase

/-!
# Names in snake case

To put a name in snake case is to lower its letters and to part its words.
In ASCII, where a word begins is seen from the place in the name and its
neighbours alone (`wordBeginsAt`): at a capital behind a small letter or a
digit, and at the last of a row of capitals if a small letter follows. So the
snake case of a name has a closed form (`toList_snakeCase`), in which
underscores stand for nothing but these places.

No capital is left (`isUppercase_snakeCase`), and what has no capital stays as
it is, in any alphabet (`snakeCase_eq_self`). A name in snake case is
therefore its own snake case.
-/

namespace BuilderForge

namespace Text

/-! ## Small letters in ASCII -/

/-- The characters of a text are all in ASCII. -/
def IsAscii (text : String) : Prop :=
  ∀ c ∈ text.toList, c.toNat < 128

instance (text : String) : Decidable (IsAscii text) :=
  List.decidableBAll (fun c : Char => c.toNat < 128) text.toList

variable {c : Char}

/-- ASCII is small enough to be looked through, character by character. -/
theorem of_ascii {P : Char → Prop} (hP : ∀ n < 128, P (Char.ofNat n)) (h : c.toNat < 128) :
    P c := by
  have hc := hP c.toNat h
  rwa [Char.ofNat_toNat] at hc

/-- A small form stays in ASCII, -/
theorem toNat_toLower_lt (h : c.toNat < 128) : c.toLower.toNat < 128 :=
  of_ascii (P := fun c => c.toLower.toNat < 128) (by decide) h

/-- and is no capital. -/
theorem isUppercase_toLower (h : c.toNat < 128) : isUppercase c.toLower = false := by
  rw [isUppercase_ascii (toNat_toLower_lt h)]
  exact of_ascii (P := fun c => c.toLower.isUpper = false) (by decide) h

/-- What is no capital is its own small form. -/
theorem toLower_eq_self (h : c.toNat < 128) (hc : c.isUpper = false) : c.toLower = c :=
  of_ascii (P := fun c => c.isUpper = false → c.toLower = c) (by decide) h hc

/-! ## Where words begin -/

/-- Whether a word begins at a place of a name, other than the first: with a
capital that stands behind a small letter or a digit, or between a capital and
a small letter. -/
def wordBeginsAt (name : List Char) : Nat → Bool
  | 0 => false
  | i + 1 =>
    match name[i]?, name[i + 1]? with
    | some previous, some c =>
      c.isUpper && (previous.isLower || previous.isDigit ||
        (previous.isUpper && name[i + 2]?.any Char.isLower))
    | _, _ => false

/-- A name in small letters, with an underscore ahead of each place where a
word begins. -/
def wordsApart (name : List Char) : List Char :=
  (name.mapIdx fun i c => if wordBeginsAt name i then ['_', c.toLower] else [c.toLower]).flatten

/-- A word begins with a capital, never at the start of a name and never
behind an underscore. -/
theorem exists_of_wordBeginsAt {name : List Char} {i : Nat} (h : wordBeginsAt name i = true) :
    ∃ j previous c, i = j + 1 ∧ name[j]? = some previous ∧ name[j + 1]? = some c ∧
      c.isUpper = true ∧ previous ≠ '_' := by
  cases i with
  | zero => cases h
  | succ j =>
    rw [wordBeginsAt] at h
    split at h
    · next previous c hprevious hc =>
      rw [Bool.and_eq_true] at h
      refine ⟨j, previous, c, rfl, hprevious, hc, h.1, ?_⟩
      rintro rfl
      exact absurd h.2 (by simp)
    · cases h

/-- Behind a character, a word begins where the two of them and the next
say so. -/
theorem wordBeginsAt_one {previous : Char} {rest : List Char}
    (h : ∀ d ∈ previous :: c :: rest, d.toNat < 128) :
    wordBeginsAt (previous :: c :: rest) 1 =
      (isUppercase c && beginsWord (some previous) rest.head?) := by
  have hprevious : previous.toNat < 128 := h previous (by simp)
  have hc : c.toNat < 128 := h c (by simp)
  have hnext : rest.head?.any isLowercase = rest.head?.any Char.isLower := by
    cases rest with
    | nil => rfl
    | cons next _ => exact isLowercase_ascii (h next (by simp))
  rw [beginsWord, isUppercase_ascii hc, isUppercase_ascii hprevious, isLowercase_ascii hprevious,
    hnext, List.head?_eq_getElem?]
  rfl

/-! ## Snake case -/

/-- A character is lowered, behind an underscore if a word begins with it. -/
theorem snakeFrom_cons (hc : c.toNat < 128) (previous : Option Char) (rest : List Char) :
    snakeFrom previous (c :: rest) =
      (if isUppercase c && beginsWord previous rest.head? then ['_', c.toLower]
        else [c.toLower]) ++ snakeFrom (some c) rest := by
  rw [snakeFrom]
  cases hupper : isUppercase c with
  | false =>
    rw [isUppercase_ascii hc] at hupper
    simp [toLower_eq_self hc hupper]
  | true => cases beginsWord previous rest.head? <;> simp [smallForm_ascii hc]

/-- What follows a character is put in snake case place by place. -/
theorem snakeFrom_some {previous : Char} {cs : List Char}
    (h : ∀ d ∈ previous :: cs, d.toNat < 128) :
    snakeFrom (some previous) cs = (cs.mapIdx fun i c =>
      if wordBeginsAt (previous :: cs) (i + 1) then ['_', c.toLower] else [c.toLower]).flatten := by
  induction cs generalizing previous with
  | nil => rfl
  | cons c rest ih =>
    have hc : c.toNat < 128 := h c (by simp)
    rw [snakeFrom_cons hc, ih fun d hd => h d (List.mem_cons_of_mem _ hd), ← wordBeginsAt_one h]
    -- a place of the rest is one place further on in the whole
    rw [List.mapIdx_cons, List.flatten_cons]
    rfl

/-- **Snake case in closed form.** -/
theorem toList_snakeCase {name : String} (h : IsAscii name) :
    (snakeCase name).toList = wordsApart name.toList := by
  rw [snakeCase, String.toList_ofList, wordsApart]
  unfold IsAscii at h
  cases hname : name.toList with
  | nil => rfl
  | cons c rest =>
    rw [hname] at h
    have hstart : (isUppercase c && beginsWord none rest.head?) = false := by
      rw [beginsWord, Bool.and_false]
    rw [snakeFrom_cons (h c List.mem_cons_self), hstart, snakeFrom_some h, List.mapIdx_cons,
      List.flatten_cons]
    rfl

/-- **No capital is left.** -/
theorem isUppercase_snakeCase {name : String} (h : IsAscii name)
    (hc : c ∈ (snakeCase name).toList) :
    isUppercase c = false := by
  rw [toList_snakeCase h, wordsApart, List.mem_flatten] at hc
  obtain ⟨piece, hpiece, hc⟩ := hc
  obtain ⟨i, hi, rfl⟩ := List.mem_mapIdx.1 hpiece
  have hlower := isUppercase_toLower (h _ (List.getElem_mem hi))
  split at hc
  · rcases List.mem_cons.1 hc with rfl | hc
    · decide
    · rwa [List.mem_singleton.1 hc]
  · rwa [List.mem_singleton.1 hc]

/-- **What has no capital stays as it is**, in any alphabet. -/
theorem snakeCase_eq_self {name : String} (h : ∀ c ∈ name.toList, isUppercase c = false) :
    snakeCase name = name := by
  rw [snakeCase, snakeFrom_eq_self h, String.ofList_toList]

/-- **A name and its snake case.** -/
structure IsSnakeCase (name snake : String) : Prop where
  /-- All letters are lowered, and an underscore stands ahead of each that
  begins a word. -/
  apart : snake.toList = wordsApart name.toList
  /-- Only capitals begin a word, not at the start of the name, and not behind
  an underscore. -/
  begins : ∀ i, wordBeginsAt name.toList i = true →
    ∃ j previous c, i = j + 1 ∧ name.toList[j]? = some previous ∧
      name.toList[j + 1]? = some c ∧ c.isUpper = true ∧ previous ≠ '_'
  /-- No capital is left, -/
  small : ∀ c ∈ snake.toList, isUppercase c = false
  /-- so there is nothing more to do. -/
  settled : snakeCase snake = snake

/-- **Names are put in snake case once and for all**: a name in ASCII has its
letters lowered and its words parted by single underscores, and a name without
capitals, in whatever alphabet, is in snake case already. -/
theorem names_put_in_snake_case :
    (∀ name, IsAscii name → IsSnakeCase name (snakeCase name)) ∧
      ∀ name : String, (∀ c ∈ name.toList, isUppercase c = false) → snakeCase name = name := by
  refine ⟨fun name hascii => ?_, fun name hsmall => snakeCase_eq_self hsmall⟩
  have hsmall : ∀ c ∈ (snakeCase name).toList, isUppercase c = false :=
    fun c hc => isUppercase_snakeCase hascii hc
  exact
    { apart := toList_snakeCase hascii
      begins := fun i hbegins => exists_of_wordBeginsAt hbegins
      small := hsmall
      settled := snakeCase_eq_self hsmall }

/-- A name with a row of capitals, a digit and an underscore of its own, and
one with a small letter beyond ASCII. -/
theorem names_put_in_snake_case_of_mixture :
    IsAscii "URLPath_Entity2List" ∧
      IsSnakeCase "URLPath_Entity2List" (snakeCase "URLPath_Entity2List") ∧
      snakeCase "URLPath_Entity2List" = "url_path_entity2_list" ∧
      (∀ c ∈ "größe_2".toList, isUppercase c = false) ∧ snakeCase "größe_2" = "größe_2" := by
  have hascii : IsAscii "URLPath_Entity2List" := by decide
  have hall : ("größe_2".toList.all fun c => !isUppercase c) = true := by decide
  have hsmall : ∀ c ∈ "größe_2".toList, isUppercase c = false := fun c hc => by
    simpa using List.all_eq_true.1 hall c hc
  exact ⟨hascii, names_put_in_snake_case.1 _ hascii, by decide, hsmall,
    names_put_in_snake_case.2 _ hsmall⟩

end Text

end BuilderForge
