import BuilderForge.Writing.Layout
import Mathlib.Data.List.Basic

/-!
# The lines of a text

A layout is rendered line by line, and where none of its pieces breaks a line
(`Layout.IsFlat`) the lines can be read back from the text
(`linesOf_render`): the text is as good as its lines. Inside a block every
line is blank or begins with the spaces of its level, so the line that closes
the block, and whatever else begins on a level further out, cannot stand
there (`not_isPrefixOf_of_mem_linesAll`). That is how a block can be told from
what is behind it.
-/

namespace BuilderForge

namespace Text

/-- The text stays on one line. -/
def IsLine (text : String) : Prop :=
  '\n' ∉ text.toList

instance (text : String) : Decidable (IsLine text) :=
  inferInstanceAs (Decidable (_ ∉ _))

/-- The lines of a text: what stands before each line end. -/
def linesOf (text : String) : List String :=
  (text.toList.splitOn '\n').dropLast.map String.ofList

@[simp]
theorem isLine_append {first second : String} :
    IsLine (first ++ second) ↔ IsLine first ∧ IsLine second := by
  simp [IsLine, not_or]

/-- Of a text that is spelled out, the characters tell. -/
theorem isLine_ofList {cs : List Char} : IsLine (String.ofList cs) ↔ '\n' ∉ cs := by
  rw [IsLine, String.toList_ofList]

theorem isLine_indentation (levels : Nat) : IsLine (indentation levels) := by
  simp [IsLine, toList_indentation]

/-- A first line is read up to its end. -/
theorem linesOf_append {line rest : String} (h : IsLine line) :
    linesOf (line ++ "\n" ++ rest) = line :: linesOf rest := by
  have hchars : (line ++ "\n" ++ rest).toList = line.toList ++ '\n' :: rest.toList := by simp
  have hline : ∀ c ∈ line.toList, (c == '\n') = false := fun c hc => by
    simpa using ne_of_mem_of_not_mem hc h
  rw [linesOf, hchars, List.splitOn, List.splitOnP_append_cons_of_forall_mem hline '\n' rfl,
    List.dropLast_cons_of_ne_nil (List.splitOnP_ne_nil _ _), List.map_cons, String.ofList_toList]
  rfl

/-- **Lines are read back** from the text that they make. -/
theorem linesOf_unlines {lines : List String} (h : ∀ line ∈ lines, IsLine line) :
    linesOf (Layout.unlines lines) = lines := by
  induction lines with
  | nil => rfl
  | cons line rest ih =>
    rw [Layout.unlines_cons, linesOf_append (h line List.mem_cons_self),
      ih fun other hother => h other (List.mem_cons_of_mem _ hother)]

end Text

namespace Layout

mutual

/-- No piece of the layout breaks a line. -/
def IsFlat : Layout → Prop
  | line content => Text.IsLine content
  | blank => True
  | block opening closing body => Text.IsLine opening ∧ Text.IsLine closing ∧ AreFlat body

/-- No piece of the layouts breaks a line. -/
def AreFlat : List Layout → Prop
  | [] => True
  | layout :: rest => layout.IsFlat ∧ AreFlat rest

end

variable {depth : Nat} {layouts first second : List Layout}

@[simp]
theorem isFlat_line {content : String} : (line content).IsFlat ↔ Text.IsLine content := by
  rw [IsFlat]

@[simp]
theorem isFlat_blank : blank.IsFlat := by
  rw [IsFlat]
  trivial

@[simp]
theorem isFlat_braced {head : String} {body : List Layout} :
    (braced head body).IsFlat ↔ Text.IsLine head ∧ AreFlat body := by
  have hopening : Text.IsLine " \x7b" := by decide
  have hclosing : Text.IsLine "\x7d" := by decide
  simp [braced, IsFlat, hopening, hclosing]

/-- Layouts are flat if each of them is. -/
theorem areFlat_iff : AreFlat layouts ↔ ∀ layout ∈ layouts, layout.IsFlat := by
  induction layouts with
  | nil => simp [AreFlat]
  | cons layout rest ih => simp [AreFlat, ih]

theorem areFlat_append : AreFlat (first ++ second) ↔ AreFlat first ∧ AreFlat second := by
  simp [areFlat_iff, or_imp, forall_and]

theorem areFlat_map_line {α : Type} {l : List α} {f : α → String} :
    AreFlat (l.map fun a => line (f a)) ↔ ∀ a ∈ l, Text.IsLine (f a) := by
  simp [areFlat_iff]

theorem areFlat_flatMap {α : Type} {l : List α} {f : α → List Layout} :
    AreFlat (l.flatMap f) ↔ ∀ a ∈ l, AreFlat (f a) := by
  simp only [areFlat_iff, List.mem_flatMap]
  exact ⟨fun h a ha layout hlayout => h layout ⟨a, ha, hlayout⟩,
    fun h layout ⟨a, ha, hlayout⟩ => h a ha layout hlayout⟩

mutual

/-- The lines of a flat layout are lines of their own. -/
theorem isLine_of_mem_lines : (layout : Layout) → layout.IsFlat → (depth : Nat) →
    ∀ l ∈ layout.lines depth, Text.IsLine l
  | line content, h, depth, l, hl => by
    obtain rfl := List.mem_singleton.1 hl
    exact Text.isLine_append.2 ⟨Text.isLine_indentation depth, isFlat_line.1 h⟩
  | blank, _, _, l, hl => by
    obtain rfl := List.mem_singleton.1 hl
    decide
  | block opening closing body, h, depth, l, hl => by
    rw [IsFlat] at h
    obtain ⟨hopening, hclosing, hbody⟩ := h
    rw [lines, List.mem_cons, List.mem_append, List.mem_singleton] at hl
    rcases hl with rfl | hl | rfl
    · exact Text.isLine_append.2 ⟨Text.isLine_indentation depth, hopening⟩
    · exact isLine_of_mem_linesAll body hbody (depth + 1) l hl
    · exact Text.isLine_append.2 ⟨Text.isLine_indentation depth, hclosing⟩

/-- The lines of flat layouts are lines of their own. -/
theorem isLine_of_mem_linesAll : (layouts : List Layout) → AreFlat layouts → (depth : Nat) →
    ∀ l ∈ linesAll depth layouts, Text.IsLine l
  | [], _, _, _, hl => by
    rw [linesAll] at hl
    cases hl
  | layout :: rest, h, depth, l, hl => by
    rw [AreFlat] at h
    rw [linesAll, List.mem_append] at hl
    rcases hl with hl | hl
    · exact isLine_of_mem_lines layout h.1 depth l hl
    · exact isLine_of_mem_linesAll rest h.2 depth l hl

end

/-- **A text of flat layouts is as good as its lines.** -/
theorem linesOf_render (h : AreFlat layouts) : Text.linesOf (render layouts) = linesAll 0 layouts :=
  Text.linesOf_unlines (isLine_of_mem_linesAll layouts h 0)

/-! ## The lines of several layouts -/

@[simp]
theorem linesAll_append :
    linesAll depth (first ++ second) = linesAll depth first ++ linesAll depth second := by
  induction first with
  | nil => simp [linesAll]
  | cons layout rest ih => simp [linesAll, ih]

theorem linesAll_map_line {α : Type} (f : α → String) (l : List α) :
    linesAll depth (l.map fun a => line (f a)) = l.map fun a => indentation depth ++ f a := by
  induction l with
  | nil => rfl
  | cons a rest ih => simp [linesAll, lines, ih]

mutual

/-- A line of a layout is blank, or it stands on its level or deeper. -/
theorem exists_of_mem_lines (depth : Nat) : (layout : Layout) → ∀ l ∈ layout.lines depth,
    l = "" ∨ ∃ level content, depth ≤ level ∧ l = indentation level ++ content
  | line content, l, hl => .inr ⟨depth, content, Nat.le_refl _, List.mem_singleton.1 hl⟩
  | blank, l, hl => .inl (List.mem_singleton.1 hl)
  | block opening closing body, l, hl => by
    rw [lines, List.mem_cons, List.mem_append, List.mem_singleton] at hl
    rcases hl with rfl | hl | rfl
    · exact .inr ⟨depth, opening, Nat.le_refl _, rfl⟩
    · rcases exists_of_mem_linesAll (depth + 1) body l hl with rfl | ⟨level, content, hlevel, rfl⟩
      · exact .inl rfl
      · exact .inr ⟨level, content, Nat.le_of_succ_le hlevel, rfl⟩
    · exact .inr ⟨depth, closing, Nat.le_refl _, rfl⟩

/-- And so for several layouts. -/
theorem exists_of_mem_linesAll (depth : Nat) : (layouts : List Layout) →
    ∀ l ∈ linesAll depth layouts,
      l = "" ∨ ∃ level content, depth ≤ level ∧ l = indentation level ++ content
  | [], _, hl => by
    rw [linesAll] at hl
    cases hl
  | layout :: rest, l, hl => by
    rw [linesAll, List.mem_append] at hl
    rcases hl with hl | hl
    · exact exists_of_mem_lines depth layout l hl
    · exact exists_of_mem_linesAll depth rest l hl

end

/-- **What begins further out does not stand inside**: no line of a level
begins with fewer spaces and something that is no space. -/
theorem not_isPrefixOf_of_mem_linesAll {level : Nat} {c : Char} {rest : List Char} {l : String}
    (h : l ∈ linesAll depth layouts) (hlevel : level < depth) (hc : c ≠ ' ') :
    ¬((indentation level).toList ++ c :: rest) <+: l.toList := by
  rintro ⟨tail, htail⟩
  rcases exists_of_mem_linesAll depth layouts l h with rfl | ⟨deeper, content, hdeeper, rfl⟩
  · simp at htail
  · -- the place of `c` is one of the spaces of the line
    obtain ⟨more, hmore⟩ : ∃ more, deeper * indentWidth = level * indentWidth + (more + 1) := by
      refine ⟨deeper * indentWidth - level * indentWidth - 1, ?_⟩
      have : level * indentWidth < deeper * indentWidth :=
        Nat.mul_lt_mul_of_pos_right (Nat.lt_of_lt_of_le hlevel hdeeper) (by decide)
      omega
    rw [String.toList_append, toList_indentation, toList_indentation, hmore, List.replicate_add,
      List.append_assoc, List.append_assoc, List.append_cancel_left_eq, List.replicate_succ,
      List.cons_append, List.cons_append, List.cons.injEq] at htail
    exact hc htail.1

end Layout

end BuilderForge
