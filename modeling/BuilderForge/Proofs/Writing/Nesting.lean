import BuilderForge.Proofs.Writing.Reading

/-!
# Braces and margins

Where a line ends in an opening brace a level is opened, and where a line is
nothing but a closing brace a level is closed. Lines are well nested if each
begins with the spaces of the levels that are open (`Text.WellNested`); that
is said of the lines alone, by counting, and knows nothing of layouts.

A layout that has its blocks in braces, and no other line that looks like the
end of one or the beginning of another (`Layout.IsBraced`), leaves no level
open and stands well wherever it begins (`IsBraced.standFrom_lines`). How its
lines go on between their ends makes no difference.
-/

namespace BuilderForge

namespace Text

/-! ## Counting braces -/

/-- The line ends in an opening brace. -/
def Opens (line : String) : Prop :=
  line.toList.getLast? = some '\x7b'

instance (line : String) : Decidable (Opens line) :=
  inferInstanceAs (Decidable (_ = _))

/-- The line is a closing brace, behind the spaces that it begins with. -/
def Closes (line : String) : Prop :=
  line.toList.dropWhile (· = ' ') = ['\x7d']

instance (line : String) : Decidable (Closes line) :=
  inferInstanceAs (Decidable (_ = _))

/-- The number of spaces that a line begins with. -/
def margin (line : String) : Nat :=
  (line.toList.takeWhile (· = ' ')).length

/-- The levels that lines open, less those that they close. -/
def nesting (lines : List String) : Int :=
  lines.countP (Opens ·) - lines.countP (Closes ·)

/-- The depth of a line where `depth` levels are open: one less if it closes
one of them. -/
def depthAt (depth : Int) (line : String) : Int :=
  depth - if Closes line then 1 else 0

/-- **Lines are well nested** if each of them has its depth, and all levels
are closed in the end. -/
structure WellNested (lines : List String) : Prop where
  /-- No level is closed that is not open. -/
  nonneg : ∀ before line after, lines = before ++ line :: after →
    0 ≤ depthAt (nesting before) line
  /-- A line that is not blank begins with four spaces for each level, and
  with no more. -/
  indented : ∀ before line after, lines = before ++ line :: after → line ≠ "" →
    margin line = 4 * depthAt (nesting before) line
  balanced : nesting lines = 0

variable {lines first second : List String} {line content front back : String}

@[simp]
theorem nesting_nil : nesting [] = 0 := rfl

@[simp]
theorem nesting_append : nesting (first ++ second) = nesting first + nesting second := by
  simp only [nesting, List.countP_append]
  omega

theorem nesting_cons (line : String) (lines : List String) :
    nesting (line :: lines) = nesting [line] + nesting lines := by
  rw [← List.singleton_append, nesting_append]

/-- The lines have their depths if `depth` levels are open where they
begin. -/
def StandFrom (depth : Int) : List String → Prop
  | [] => True
  | line :: rest =>
    (0 ≤ depthAt depth line ∧ (line ≠ "" → margin line = 4 * depthAt depth line)) ∧
      StandFrom (depth + nesting [line]) rest

/-- Lines stand right in two parts: the second begins where the first one
leads. -/
theorem standFrom_append {depth : Int} : StandFrom depth (first ++ second) ↔
    StandFrom depth first ∧ StandFrom (depth + nesting first) second := by
  induction first generalizing depth with
  | nil => simp [StandFrom]
  | cons line rest ih =>
    rw [List.cons_append, StandFrom, ih, StandFrom, nesting_cons line rest, Int.add_assoc]
    exact and_assoc.symm

/-- **Lines that stand right from the margin, and leave no level open, are
well nested.** -/
theorem StandFrom.wellNested (h : StandFrom 0 lines) (hbalanced : nesting lines = 0) :
    WellNested lines := by
  have hline : ∀ before line after, lines = before ++ line :: after →
      0 ≤ depthAt (nesting before) line ∧
        (line ≠ "" → margin line = 4 * depthAt (nesting before) line) := by
    rintro before line after rfl
    have hrest := (standFrom_append.1 h).2
    rw [Int.zero_add] at hrest
    exact hrest.1
  exact ⟨fun before line after heq => (hline before line after heq).1,
    fun before line after heq => (hline before line after heq).2, hbalanced⟩

/-! ## The ends of a line -/

/-- The text begins with something that is neither a space nor a closing
brace. -/
def Begins (content : String) : Prop :=
  ∃ c rest, content.toList = c :: rest ∧ c ≠ ' ' ∧ c ≠ '\x7d'

/-- The text ends with something that is no opening brace. -/
def Ends (content : String) : Prop :=
  ∃ c, content.toList.getLast? = some c ∧ c ≠ '\x7b'

theorem begins_ofList {c : Char} {cs : List Char} (h : c ≠ ' ' ∧ c ≠ '\x7d') :
    Begins (String.ofList (c :: cs)) :=
  ⟨c, cs, String.toList_ofList, h⟩

theorem Begins.append (h : Begins front) : Begins (front ++ back) := by
  obtain ⟨c, rest, hfront, hc⟩ := h
  exact ⟨c, rest ++ back.toList, by rw [String.toList_append, hfront, List.cons_append], hc⟩

/-- A name begins well, and if it is empty what follows does. -/
theorem Begins.name_append (hname : IsName front) (h : Begins back) : Begins (front ++ back) := by
  cases hfront : front.toList with
  | nil =>
    obtain ⟨c, rest, hback, hc⟩ := h
    exact ⟨c, rest, by rw [String.toList_append, hfront, List.nil_append, hback], hc⟩
  | cons c rest =>
    have hpart : isNamePart c = true := List.all_eq_true.1 hname c (by simp [hfront])
    refine ⟨c, rest ++ back.toList, by rw [String.toList_append, hfront, List.cons_append], ?_, ?_⟩
    · rintro rfl
      revert hpart
      decide
    · rintro rfl
      revert hpart
      decide

theorem ends_ofList {cs : List Char} (h : cs ≠ [] ∧ cs.getLast? ≠ some '\x7b') :
    Ends (String.ofList cs) := by
  obtain ⟨hne, hbrace⟩ := h
  rw [List.getLast?_eq_some_getLast hne, Ne, Option.some.injEq] at hbrace
  exact ⟨_, by rw [String.toList_ofList, List.getLast?_eq_some_getLast hne], hbrace⟩

/-- The end of a text is that of its last piece. -/
theorem Ends.append (h : Ends back) : Ends (front ++ back) := by
  obtain ⟨c, hback, hc⟩ := h
  exact ⟨c, by rw [String.toList_append, List.getLast?_append, hback, Option.some_or], hc⟩

theorem Ends.not_opens (h : Ends content) : ¬Opens content := by
  obtain ⟨c, hlast, hc⟩ := h
  rw [Opens, hlast, Option.some.injEq]
  exact hc

/-- What stands in front of an opening brace makes no difference. -/
theorem opens_append_brace : Opens (front ++ " \x7b") := by
  rw [Opens, String.toList_append, List.getLast?_append]
  rfl

/-! ## Indented lines -/

section Indented

variable {depth : Nat} {c : Char} {rest : List Char}

/-- The margin of an indented line is its indentation, -/
theorem margin_indentation_append (h : content.toList = c :: rest) (hc : c ≠ ' ') :
    margin (indentation depth ++ content) = depth * indentWidth := by
  rw [margin, String.toList_append, toList_indentation, h,
    List.takeWhile_append_of_pos (by simp), List.takeWhile_cons_of_neg (by simpa using hc),
    List.append_nil, List.length_replicate]

/-- and behind the margin stands its content. -/
theorem closes_indentation_append_iff (h : content.toList = c :: rest) (hc : c ≠ ' ') :
    Closes (indentation depth ++ content) ↔ content.toList = ['\x7d'] := by
  rw [Closes, String.toList_append, toList_indentation, h,
    List.dropWhile_append_of_pos (by simp), List.dropWhile_cons_of_neg (by simpa using hc)]

theorem opens_indentation_append_iff (h : content.toList = c :: rest) :
    Opens (indentation depth ++ content) ↔ Opens content := by
  rw [Opens, Opens, String.toList_append, List.getLast?_append, h, List.getLast?_cons,
    Option.some_or]

/-- A line that begins well closes nothing. -/
theorem Begins.not_closes (h : Begins content) : ¬Closes (indentation depth ++ content) := by
  obtain ⟨c, rest, hcontent, hspace, hbrace⟩ := h
  rw [closes_indentation_append_iff hcontent hspace, hcontent, List.cons.injEq]
  exact fun heq => hbrace heq.1

/-- So it stands where it should. -/
theorem Begins.standFrom_singleton (h : Begins content) :
    StandFrom depth [indentation depth ++ content] := by
  have hcloses : ¬Closes (indentation depth ++ content) := h.not_closes
  obtain ⟨c, rest, hcontent, hspace, -⟩ := h
  rw [StandFrom, depthAt, if_neg hcloses, margin_indentation_append hcontent hspace, indentWidth]
  refine ⟨⟨by omega, fun _ => by omega⟩, trivial⟩

/-- The line of a statement neither opens nor closes a level, -/
theorem nesting_statement (h : Begins content) (hends : Ends content) :
    nesting [indentation depth ++ content] = 0 := by
  have hcloses : ¬Closes (indentation depth ++ content) := h.not_closes
  obtain ⟨c, rest, hcontent, -⟩ := h
  have hopens : ¬Opens (indentation depth ++ content) :=
    mt (opens_indentation_append_iff hcontent).1 hends.not_opens
  simp [nesting, hopens, hcloses]

/-- the one in front of a block opens one, -/
theorem nesting_opening (h : Begins content) :
    nesting [indentation depth ++ (content ++ " \x7b")] = 1 := by
  have hbegins : Begins (content ++ " \x7b") := h.append
  have hcloses : ¬Closes (indentation depth ++ (content ++ " \x7b")) := hbegins.not_closes
  obtain ⟨c, rest, hcontent, -⟩ := hbegins
  have hopens : Opens (indentation depth ++ (content ++ " \x7b")) :=
    (opens_indentation_append_iff hcontent).2 opens_append_brace
  simp [nesting, hopens, hcloses]

/-- and the one behind it closes one and stands a level further out. -/
theorem closing_line (depth : Nat) : nesting [indentation depth ++ "\x7d"] = -1 ∧
    StandFrom (depth + 1) [indentation depth ++ "\x7d"] := by
  have hbrace : ("\x7d" : String).toList = ['\x7d'] := rfl
  have hcloses : Closes (indentation depth ++ "\x7d") :=
    (closes_indentation_append_iff hbrace (by decide)).2 hbrace
  have hopens : ¬Opens (indentation depth ++ "\x7d") := by
    rw [opens_indentation_append_iff hbrace]
    decide
  refine ⟨by simp [nesting, hopens, hcloses], ?_⟩
  rw [StandFrom, depthAt, if_pos hcloses, margin_indentation_append hbrace (by decide), indentWidth]
  refine ⟨⟨by omega, fun _ => by omega⟩, trivial⟩

end Indented

end Text

namespace Layout

open Text

/-! ## Layouts in braces -/

/-- **A layout has its blocks in braces**, and no line of its own that could
be taken for the beginning or the end of one. -/
inductive IsBraced : Layout → Prop
  | line {content : String} : Begins content → Ends content → IsBraced (line content)
  | blank : IsBraced blank
  | block {head : String} {body : List Layout} : Begins head →
      (∀ layout ∈ body, IsBraced layout) → IsBraced (braced head body)

/-- Layouts that stand right, each for itself, and leave no level open stand
right one after the other. -/
theorem standFrom_linesAll {layouts : List Layout} {depth : Nat}
    (h : ∀ layout ∈ layouts,
      StandFrom depth (layout.lines depth) ∧ nesting (layout.lines depth) = 0) :
    StandFrom depth (linesAll depth layouts) ∧ nesting (linesAll depth layouts) = 0 := by
  induction layouts with
  | nil => exact ⟨trivial, rfl⟩
  | cons layout rest ih =>
    obtain ⟨⟨hstands, hbalanced⟩, hrest⟩ := List.forall_mem_cons.1 h
    obtain ⟨hlater, hclosed⟩ := ih hrest
    rw [linesAll, standFrom_append, nesting_append, hbalanced, Int.add_zero, Int.zero_add]
    exact ⟨⟨hstands, hlater⟩, hclosed⟩

/-- **A layout in braces stands right** on every level, and leaves no level
open. -/
theorem IsBraced.standFrom_lines {layout : Layout} (h : layout.IsBraced) (depth : Nat) :
    StandFrom depth (layout.lines depth) ∧ nesting (layout.lines depth) = 0 := by
  induction h generalizing depth with
  | line hbegins hends =>
    rw [lines]
    exact ⟨hbegins.standFrom_singleton, nesting_statement hbegins hends⟩
  | blank =>
    rw [lines]
    refine ⟨⟨⟨?_, fun hne => absurd rfl hne⟩, trivial⟩, by decide⟩
    rw [depthAt, if_neg (by decide)]
    omega
  | @block head body hhead _ ih =>
    obtain ⟨hbody, hbalanced⟩ := standFrom_linesAll fun layout hmem => ih layout hmem (depth + 1)
    obtain ⟨hclosing, hcloses⟩ := closing_line depth
    have hopening : nesting [indentation depth ++ (head ++ " \x7b")] = 1 := nesting_opening hhead
    rw [lines_braced, ← List.singleton_append, standFrom_append, standFrom_append, nesting_append,
      nesting_append, hopening, hbalanced, hclosing, Int.add_zero]
    exact ⟨⟨(hhead.append).standFrom_singleton, hbody, hcloses⟩, rfl⟩

/-- **Layouts in braces make well-nested lines.** -/
theorem wellNested_linesAll {layouts : List Layout} (h : ∀ layout ∈ layouts, layout.IsBraced) :
    WellNested (linesAll 0 layouts) := by
  obtain ⟨hstands, hbalanced⟩ := standFrom_linesAll fun layout hmem =>
    (h layout hmem).standFrom_lines 0
  exact hstands.wellNested hbalanced

end Layout

end BuilderForge
