import BuilderForge.Proofs.Text.Escaping
import BuilderForge.Proofs.Writing.Lines

/-!
# Reading text back

What a reader of generated text can do without knowing how it was written:
tell what stands behind or between given words (`Text.after?`,
`Text.between?`), take a name off the front of a text (`Text.nameAt`), find
the lines of a block (`Text.blockOf`) and part lines into paragraphs at the
blank ones (`Text.paragraphs`). Each comes with the lemma that says what it
reads in a text of known form.
-/

namespace BuilderForge

namespace Text

/-! ## Pieces of a line -/

/-- What stands behind `before`, if the text begins with that. -/
def after? (before text : String) : Option String :=
  (before.toList.isPrefixOf? text.toList).map String.ofList

/-- What stands between `before` and `behind`, if the text begins and ends
with those. -/
def between? (before behind text : String) : Option String :=
  (after? before text).bind fun rest =>
    (behind.toList.isSuffixOf? rest.toList).map String.ofList

/-- The name at the front of a text, which may be empty, and what stands
behind it. -/
def nameAt (text : String) : String × String :=
  (String.ofList (text.toList.takeWhile isNamePart),
    String.ofList (text.toList.dropWhile isNamePart))

/-- The text is made of name characters. -/
def IsName (name : String) : Prop :=
  name.toList.all isNamePart = true

instance (name : String) : Decidable (IsName name) :=
  inferInstanceAs (Decidable (_ = true))

variable {before behind more text name rest : String}

@[simp]
theorem after?_append : after? before (before ++ text) = some text := by
  have h : before.toList.isPrefixOf? (before ++ text).toList = some text.toList :=
    List.isPrefixOf?_eq_some_iff_append_eq.2 String.toList_append.symm
  rw [after?, h, Option.map_some, String.ofList_toList]

theorem after?_eq_none (h : ¬before.toList <+: text.toList) : after? before text = none := by
  rw [after?, Option.map_eq_none_iff, Option.eq_none_iff_forall_ne_some]
  intro rest hrest
  exact h ⟨rest, List.isPrefixOf?_eq_some_iff_append_eq.1 hrest⟩

@[simp]
theorem between?_append : between? before behind (before ++ (text ++ behind)) = some text := by
  have h : behind.toList.isSuffixOf? (text ++ behind).toList = some text.toList :=
    List.isSuffixOf?_eq_some_iff_append_eq.2 String.toList_append.symm
  rw [between?, after?_append, Option.bind_some, h, Option.map_some, String.ofList_toList]

theorem between?_eq_none (h : ¬before.toList <+: text.toList) :
    between? before behind text = none := by
  rw [between?, after?_eq_none h, Option.bind_none]

/-- Something that both begin with does not count. -/
theorem after?_append_append : after? (before ++ more) (before ++ text) = after? more text := by
  rw [after?, after?, String.toList_append, String.toList_append]
  congr 1
  induction before.toList with
  | nil => rfl
  | cons c cs ih => simpa [List.isPrefixOf?] using ih

theorem between?_append_append :
    between? (before ++ more) behind (before ++ text) = between? more behind text := by
  rw [between?, after?_append_append, between?]

/-- Words that differ in some place are told apart. -/
theorem not_isPrefixOf_of_differ {cs ds : List Char}
    (h : ((cs.zip ds).any fun pair => pair.1 != pair.2) = true) :
    ¬(String.ofList cs).toList <+: (String.ofList ds ++ rest).toList := by
  rw [String.toList_append, String.toList_ofList, String.toList_ofList]
  induction cs generalizing ds with
  | nil => simp at h
  | cons c cs ih =>
    cases ds with
    | nil => simp at h
    | cons d ds =>
      rw [List.zip_cons_cons, List.any_cons, Bool.or_eq_true, bne_iff_ne] at h
      rw [List.cons_append, List.cons_prefix_cons]
      rintro ⟨rfl, hprefix⟩
      exact h.elim (fun hne => hne rfl) fun hany => ih hany hprefix

theorem not_isPrefixOf_ofList {cs ds : List Char} (h : ¬cs <+: ds) :
    ¬(String.ofList cs).toList <+: (String.ofList ds).toList := by
  rwa [String.toList_ofList, String.toList_ofList]

/-- And the first characters may be all that is known of one of them. -/
theorem not_cons_isPrefixOf_ofList {c d : Char} {cs ds : List Char} (h : c ≠ d) :
    ¬(c :: cs) <+: (String.ofList (d :: ds)).toList := by
  rw [String.toList_ofList, List.cons_prefix_cons]
  exact fun hprefix => h hprefix.1

theorem not_cons_isPrefixOf_append {c d : Char} {cs ds : List Char} (h : c ≠ d) :
    ¬(c :: cs) <+: (String.ofList (d :: ds) ++ rest).toList := by
  rw [String.toList_append, String.toList_ofList, List.cons_append, List.cons_prefix_cons]
  exact fun hprefix => h hprefix.1

/-- A name ends in front of the text. -/
def EndsName (text : String) : Prop :=
  ∃ c tail, text.toList = c :: tail ∧ isNamePart c = false

theorem endsName_ofList_append {c : Char} {cs : List Char} (hc : isNamePart c = false) :
    EndsName (String.ofList (c :: cs) ++ rest) :=
  ⟨c, cs ++ rest.toList, by simp, hc⟩

/-- **A name is read** up to where it ends. -/
theorem nameAt_append (h : IsName name) (hrest : EndsName rest) :
    nameAt (name ++ rest) = (name, rest) := by
  obtain ⟨c, tail, hrest, hc⟩ := hrest
  have htake : (name ++ rest).toList.takeWhile isNamePart = name.toList := by
    rw [String.toList_append, List.takeWhile_append_of_pos (List.all_eq_true.1 h), hrest,
      List.takeWhile_cons_of_neg (by simp [hc]), List.append_nil]
  have hdrop : (name ++ rest).toList.dropWhile isNamePart = rest.toList := by
    rw [String.toList_append, List.dropWhile_append_of_pos (List.all_eq_true.1 h), hrest,
      List.dropWhile_cons_of_neg (by simp [hc])]
  rw [nameAt, htake, hdrop, String.ofList_toList, String.ofList_toList]

/-- Names that are put together are a name. -/
theorem IsName.append (h : IsName name) (hrest : IsName rest) : IsName (name ++ rest) := by
  rw [IsName, String.toList_append, List.all_append, h, hrest, Bool.true_and]

/-- A name stays on one line. -/
theorem IsName.isLine (h : IsName name) : IsLine name := fun hbreak =>
  absurd (List.all_eq_true.1 h _ hbreak) (by decide)

/-- What can be escaped is a name, -/
theorem isName_of_escape (h : escape text = some name) : IsName text := by
  refine List.all_eq_true.2 fun c hc => ?_
  rw [isNamePart, isIdentifierPart_of_isIdentifier (escape_eq_some_iff.1 h).1 hc, Bool.true_or]

/-- and so is what it is escaped to. -/
theorem isName_escape (h : escape text = some name) : IsName name :=
  List.all_eq_true.2 fun _ hc => isNamePart_of_escape h hc

/-! ## Parts of a list of lines -/

/-- The lines between the first line at the given depth that opens a block
with the given head and the next line at that depth that closes one. -/
def blockOf (depth : Nat) (head : String) (lines : List String) : List String :=
  ((lines.dropWhile (· ≠ indentation depth ++ (head ++ " \x7b"))).drop 1).takeWhile
    (· ≠ indentation depth ++ "\x7d")

/-- The lines, parted at the blank ones. -/
def paragraphs (lines : List String) : List (List String) :=
  lines.splitOn ""

/-- The first paragraph ends at the first blank line. -/
theorem paragraphs_append {lines rest : List String} (h : "" ∉ lines) :
    paragraphs (lines ++ "" :: rest) = lines :: paragraphs rest := by
  have hlines : ∀ line ∈ lines, (line == "") = false := fun line hline => by
    simpa using ne_of_mem_of_not_mem hline h
  exact List.splitOnP_append_cons_of_forall_mem hlines "" rfl rest

/-- Lines without a blank one are one paragraph. -/
theorem paragraphs_of_notMem {lines : List String} (h : "" ∉ lines) :
    paragraphs lines = [lines] :=
  List.splitOn_eq_singleton h

end Text

namespace Layout

variable {depth : Nat} {head : String} {body : List Layout} {before after : List String}

/-- The lines of a block: what opens it, its body, what closes it. -/
theorem lines_braced : (braced head body).lines depth =
    (indentation depth ++ (head ++ " \x7b")) ::
      (linesAll (depth + 1) body ++ [indentation depth ++ "\x7d"]) := by
  rw [braced, lines]

/-- The line that closes a block does not stand inside. -/
theorem closing_notMem_linesAll : indentation depth ++ "\x7d" ∉ linesAll (depth + 1) body := by
  intro h
  have hout : ¬((indentation depth).toList ++ ['\x7d']) <+: (indentation depth ++ "\x7d").toList :=
    not_isPrefixOf_of_mem_linesAll h (Nat.lt_succ_self depth) (by decide)
  exact hout (by simp)

/-- So the lines up to it are the body. -/
theorem takeWhile_linesAll :
    (linesAll (depth + 1) body ++ (indentation depth ++ "\x7d") :: after).takeWhile
        (· ≠ indentation depth ++ "\x7d") =
      linesAll (depth + 1) body := by
  have hbody : ∀ l ∈ linesAll (depth + 1) body,
      decide (l ≠ indentation depth ++ "\x7d") = true := fun l hl =>
    decide_eq_true (ne_of_mem_of_not_mem hl closing_notMem_linesAll)
  rw [List.takeWhile_append_of_pos hbody, List.takeWhile_cons_of_neg (by simp), List.append_nil]

/-- **A block is read back**: the first one with its head. -/
theorem blockOf_braced (h : indentation depth ++ (head ++ " \x7b") ∉ before) :
    Text.blockOf depth head (before ++ ((braced head body).lines depth ++ after)) =
      linesAll (depth + 1) body := by
  have hbefore : ∀ l ∈ before, decide (l ≠ indentation depth ++ (head ++ " \x7b")) = true :=
    fun l hl => decide_eq_true (ne_of_mem_of_not_mem hl h)
  rw [lines_braced, Text.blockOf, List.dropWhile_append_of_pos hbefore, List.cons_append,
    List.dropWhile_cons_of_neg (by simp), List.drop_one, List.tail_cons, List.append_assoc,
    List.singleton_append, takeWhile_linesAll]

/-- A block that stands alone. -/
theorem blockOf_singleton :
    Text.blockOf depth head (linesAll depth [braced head body]) = linesAll (depth + 1) body := by
  have h := @blockOf_braced depth head body [] [] List.not_mem_nil
  rwa [List.nil_append] at h

/-- A line that stands deeper than the margin is not blank. -/
theorem indentation_append_ne_empty {content : String} :
    indentation (depth + 1) ++ content ≠ "" := by
  intro h
  have hlength := congrArg (fun text => text.toList.length) h
  simp [toList_indentation, indentWidth] at hlength

/-- A layout without blank lines is a paragraph if a blank line follows. -/
theorem paragraphs_linesAll {layout : Layout} {rest : List Layout} (h : "" ∉ layout.lines depth) :
    Text.paragraphs (linesAll depth (layout :: blank :: rest)) =
      layout.lines depth :: Text.paragraphs (linesAll depth rest) := by
  rw [linesAll, linesAll, lines, List.singleton_append, Text.paragraphs_append h]

end Layout

end BuilderForge
