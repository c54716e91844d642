import BuilderForge.Proofs.Emission.Resolved
import BuilderForge.Proofs.Listing.Keys
import Mathlib.Data.List.Induction

/-!
# Which specifications can be written

What a specification needs is told by its names alone: by the builder's name,
the target, and the names and stems of the members
(`BuilderSpec.WellFormed`). Neither the fields, which are stems under their
names, nor the methods, which are made of stems, have conditions of their
own: no two members share a field exactly if no two share a stem, and a
method can be shared besides only if one stem is another one with the ending
of a producer setter.

A specification that is not well-formed has a first fault
(`BuilderSpec.FirstFault`): of the builder's name, of the target, or of the
first member that cannot stand behind those ahead of it, which are compatible
among themselves. Emission gives that fault, and a text where there is none.
-/

namespace BuilderForge

/-! ## What can be written -/

/-- The word is a name as it stands. -/
structure Text.IsPlainName (word : String) : Prop where
  identifier : isIdentifier word = true
  ne_keyword : isKeyword word = false
  escapable : word ∉ unescapable

/-- What a member needs by itself: names, and a stem that no fixed field has. -/
structure Member.Fits (member : Member) : Prop extends member.Nameable where
  stem_ne_factory : member.stem ≠ factoryField
  stem_ne_rules : member.stem ≠ rulesField

/-- Members that can be written together. -/
structure Member.Compatible (members : List Member) : Prop where
  fits : ∀ member ∈ members, member.Fits
  stems_distinct : (members.map Member.stem).Nodup
  /-- No stem with the ending of a producer setter is a stem. -/
  stem_ne_producer : ∀ member ∈ members, ∀ other ∈ members, member.stem ≠ other.stem ++ "_fn"

/-- **What a specification needs** to be written. -/
structure BuilderSpec.WellFormed (spec : BuilderSpec) : Prop where
  name_plain : Text.IsPlainName spec.name
  target_shows : ∃ c ∈ spec.target.toList, Text.isSpace c = false
  compatible : Member.Compatible spec.members

/-! ## What keeps it from being written -/

/-- **What is wrong with a member** behind those ahead of it: the first of the
things that can be, in the order in which they are listed here. -/
inductive Member.Fault (ahead : List Member) (member : Member) : EmitError → Prop
  | emptyName (h : member.name = "") : Fault ahead member (.emptyMemberName ahead.length)
  | emptyType (hname : member.name ≠ "")
      (h : ∀ c ∈ member.typeName.toList, Text.isSpace c = true) :
      Fault ahead member (.emptyTypeName member.name)
  | invalidName (hname : member.name ≠ "")
      (htype : ∃ c ∈ member.typeName.toList, Text.isSpace c = false)
      (h : Text.escape member.name = none ∨ Text.escape member.stem = none) :
      Fault ahead member (.invalidMemberName member.name)
  /-- The stem is that of a fixed field. -/
  | reservedField (hnames : member.Nameable)
      (h : member.stem = factoryField ∨ member.stem = rulesField) :
      Fault ahead member (.reservedField member.name member.stem)
  /-- A member ahead has the same stem, and so the same field. -/
  | duplicateField {first : Member} {field : String} (hfits : member.Fits) (hfirst : first ∈ ahead)
      (h : first.stem = member.stem) (hfield : Text.escape member.stem = some field) :
      Fault ahead member (.duplicateField first.name member.name field)
  /-- The value setter is the producer setter of a member ahead. -/
  | duplicateValueSetter {first : Member} (hfits : member.Fits)
      (hstems : ∀ other ∈ ahead, other.stem ≠ member.stem) (hfirst : first ∈ ahead)
      (h : member.stem = first.stem ++ "_fn") :
      Fault ahead member (.duplicateMethod first.name member.name ("with_" ++ member.stem))
  /-- The producer setter is the value setter of a member ahead. -/
  | duplicateProducerSetter {first : Member} (hfits : member.Fits)
      (hstems : ∀ other ∈ ahead, other.stem ≠ member.stem)
      (hvalue : ∀ other ∈ ahead, member.stem ≠ other.stem ++ "_fn") (hfirst : first ∈ ahead)
      (h : first.stem = member.stem ++ "_fn") :
      Fault ahead member
        (.duplicateMethod first.name member.name ("with_" ++ member.stem ++ "_fn"))

/-- **What is wrong with a specification**: the first check that fails, and of
the members the first that has a fault behind those ahead of it. -/
inductive BuilderSpec.FirstFault (spec : BuilderSpec) : EmitError → Prop
  | emptyName (h : spec.name = "") : FirstFault spec .emptyBuilderName
  | invalidName (hname : spec.name ≠ "") (h : ¬Text.IsPlainName spec.name) :
      FirstFault spec (.invalidBuilderName spec.name)
  | emptyTarget (hname : Text.IsPlainName spec.name)
      (h : ∀ c ∈ spec.target.toList, Text.isSpace c = true) : FirstFault spec .emptyTargetName
  | member {before after : List Member} {member : Member} {error : EmitError}
      (hname : Text.IsPlainName spec.name)
      (htarget : ∃ c ∈ spec.target.toList, Text.isSpace c = false)
      (hmembers : spec.members = before ++ member :: after)
      (hbefore : Member.Compatible before) (h : member.Fault before error) :
      FirstFault spec error

/-- A plain name is its own name. -/
theorem Text.isPlainName_iff {word : String} :
    IsPlainName word ↔ escape word = some word := by
  rw [escape_eq_self_iff]
  exact ⟨fun h => ⟨h.identifier, h.ne_keyword, h.escapable⟩, fun h => ⟨h.1, h.2.1, h.2.2⟩⟩

/-- The empty word is none. -/
theorem Text.IsPlainName.ne_empty {word : String} (h : IsPlainName word) : word ≠ "" := by
  rintro rfl
  exact Bool.false_ne_true h.identifier

/-- The ending of a producer setter leaves no stem as it is. -/
theorem ne_append_producer (word : String) : word ≠ word ++ "_fn" := by
  intro h
  have hlength := congrArg (fun w : String => w.toList.length) h
  simp at hlength

/-- A stem can be read off its producer setter. -/
theorem append_producer_injective : Function.Injective (· ++ "_fn" : String → String) :=
  fun _ _ h => (String.append_left_inj "_fn").1 h

namespace Member

variable {members before after : List Member} {member : Member} {error : EmitError}

theorem compatible_nil : Compatible [] :=
  ⟨by simp, .nil, by simp⟩

/-- **One more member** is compatible with others if it fits and shares no
stem and no method with them. -/
theorem compatible_concat_iff : Compatible (before ++ [member]) ↔
    Compatible before ∧ member.Fits ∧ ∀ other ∈ before, other.stem ≠ member.stem ∧
      member.stem ≠ other.stem ++ "_fn" ∧ other.stem ≠ member.stem ++ "_fn" := by
  have hself := ne_append_producer member.stem
  constructor
  · rintro ⟨hfits, hstems, hproducer⟩
    rw [List.map_append, List.nodup_append] at hstems
    refine ⟨⟨fun m hm => hfits m (by simp [hm]), hstems.1,
      fun m hm o ho => hproducer m (by simp [hm]) o (by simp [ho])⟩, hfits member (by simp),
      fun other hother => ⟨?_, hproducer member (by simp) other (by simp [hother]),
        hproducer other (by simp [hother]) member (by simp)⟩⟩
    exact hstems.2.2 other.stem (List.mem_map_of_mem hother) member.stem (by simp)
  · rintro ⟨⟨hfits, hstems, hproducer⟩, hmember, hothers⟩
    refine ⟨fun m hm => ?_, ?_, fun m hm o ho => ?_⟩
    · rcases List.mem_append.1 hm with hm | hm
      · exact hfits m hm
      · rw [List.mem_singleton.1 hm]
        exact hmember
    · rw [List.map_append, List.nodup_append]
      refine ⟨hstems, by simp, fun stem hstem stem' hstem' => ?_⟩
      obtain ⟨other, hother, rfl⟩ := List.mem_map.1 hstem
      obtain rfl : stem' = member.stem := by simpa using hstem'
      exact (hothers other hother).1
    · rcases List.mem_append.1 hm with hm | hm <;> rcases List.mem_append.1 ho with ho | ho
      · exact hproducer m hm o ho
      · rw [List.mem_singleton.1 ho]
        exact (hothers m hm).2.2
      · rw [List.mem_singleton.1 hm]
        exact (hothers o ho).2.1
      · rw [List.mem_singleton.1 hm, List.mem_singleton.1 ho]
        exact hself

/-- What is ahead of compatible members is compatible. -/
theorem Compatible.of_append (h : Compatible (before ++ after)) : Compatible before where
  fits m hm := h.fits m (List.mem_append_left _ hm)
  stems_distinct := (List.nodup_append.1 (List.map_append ▸ h.stems_distinct)).1
  stem_ne_producer m hm o ho :=
    h.stem_ne_producer m (List.mem_append_left _ hm) o (List.mem_append_left _ ho)

/-- **A member has a fault, or it can stand** behind the members ahead of it. -/
theorem compatible_concat_or_fault (h : Compatible before) (member : Member) :
    Compatible (before ++ [member]) ∨ ∃ error, member.Fault before error := by
  by_cases hname : member.name = ""
  · exact .inr ⟨_, .emptyName hname⟩
  by_cases htype : ∃ c ∈ member.typeName.toList, Text.isSpace c = false
  swap
  · exact .inr ⟨_, .emptyType hname (by simpa using htype)⟩
  by_cases hinvalid : Text.escape member.name = none ∨ Text.escape member.stem = none
  · exact .inr ⟨_, .invalidName hname htype hinvalid⟩
  simp only [not_or, ← Option.isSome_iff_ne_none] at hinvalid
  have hnames : member.Nameable := ⟨htype, hinvalid.1, hinvalid.2⟩
  by_cases hreserved : member.stem = factoryField ∨ member.stem = rulesField
  · exact .inr ⟨_, .reservedField hnames hreserved⟩
  rw [not_or] at hreserved
  have hfits : member.Fits := ⟨hnames, hreserved.1, hreserved.2⟩
  by_cases hstem : ∃ first ∈ before, first.stem = member.stem
  · obtain ⟨first, hfirst, heq⟩ := hstem
    obtain ⟨field, hfield⟩ := Option.isSome_iff_exists.1 hnames.stem_escapes
    exact .inr ⟨_, .duplicateField hfits hfirst heq hfield⟩
  by_cases hvalue : ∃ first ∈ before, member.stem = first.stem ++ "_fn"
  · obtain ⟨first, hfirst, heq⟩ := hvalue
    exact .inr ⟨_, .duplicateValueSetter hfits (by simpa using hstem) hfirst heq⟩
  by_cases hproducer : ∃ first ∈ before, first.stem = member.stem ++ "_fn"
  · obtain ⟨first, hfirst, heq⟩ := hproducer
    exact .inr ⟨_, .duplicateProducerSetter hfits (by simpa using hstem) (by simpa using hvalue)
      hfirst heq⟩
  · exact .inl (compatible_concat_iff.2 ⟨h, hfits, fun other hother =>
      ⟨fun heq => hstem ⟨other, hother, heq⟩, fun heq => hvalue ⟨other, hother, heq⟩,
        fun heq => hproducer ⟨other, hother, heq⟩⟩⟩)

/-- **Members are compatible, or a first one has a fault.** -/
theorem compatible_or_fault (members : List Member) : Compatible members ∨
    ∃ before member after error, members = before ++ member :: after ∧ Compatible before ∧
      member.Fault before error := by
  induction members using List.reverseRecOn with
  | nil => exact .inl compatible_nil
  | append_singleton earlier last ih =>
    rcases ih with hcompatible | ⟨before, member, after, error, rfl, hbefore, hfault⟩
    · rcases compatible_concat_or_fault hcompatible last with hall | ⟨error, hfault⟩
      · exact .inl hall
      · exact .inr ⟨earlier, last, [], error, rfl, hcompatible, hfault⟩
    · exact .inr ⟨before, member, after ++ [last], error, by simp, hbefore, hfault⟩

end Member

/-! ## What is checked -/

/-- A look-up finds the one element that there is. -/
theorem find?_eq_some_of_unique {α : Type} {l : List α} {p : α → Bool} {a : α} (ha : a ∈ l)
    (hp : p a = true) (hunique : ∀ b ∈ l, p b = true → b = a) : l.find? p = some a := by
  cases hfind : l.find? p with
  | none => exact absurd hp (List.find?_eq_none.1 hfind a ha)
  | some b => rw [hunique b (List.mem_of_find?_eq_some hfind) (List.find?_some hfind)]

namespace PlannedMember

variable {ahead : List PlannedMember} {planned first : PlannedMember}
variable {members before after rest : List Member} {next : Member} {error : EmitError}
variable {method : String}

/-- A member with names for itself and its stem is resolved. -/
theorem exists_ofMember_eq_ok (h : next.Nameable) (index : Nat) :
    ∃ planned, ofMember index next = .ok planned := by
  obtain ⟨access, haccess⟩ := Option.isSome_iff_exists.1 h.name_escapes
  obtain ⟨field, hfield⟩ := Option.isSome_iff_exists.1 h.stem_escapes
  exact ⟨⟨next, next.stem, field, access⟩,
    ofMember_eq_ok_iff.2 ⟨h, rfl, ⟨rfl, hfield, haccess⟩⟩⟩

/-- The fixed fields are the names of their own words. -/
theorem IsResolved.reserved_iff (h : planned.IsResolved) :
    planned.field = factoryField ∨ planned.field = rulesField ↔
      planned.member.stem = factoryField ∨ planned.member.stem = rulesField := by
  have hfactory : Text.escape factoryField = some factoryField := by decide
  have hrules : Text.escape rulesField = some rulesField := by decide
  rw [h.field_eq_iff hfactory, h.field_eq_iff hrules, h.stem]

/-- Fields are shared where stems are. -/
theorem IsResolved.field_eq_field_iff (h : first.IsResolved) (hplanned : planned.IsResolved) :
    first.field = planned.field ↔ first.member.stem = planned.member.stem := by
  rw [h.field_eq_iff hplanned.field, h.stem, hplanned.stem]

/-- Of compatible members a stem tells which it is. -/
theorem eq_of_stem (h : Member.Compatible (ahead.map PlannedMember.member))
    (hplanned : planned ∈ ahead) (hfirst : first ∈ ahead)
    (hstem : planned.member.stem = first.member.stem) : planned = first := by
  have hstems := h.stems_distinct
  rw [List.map_map] at hstems
  exact List.inj_on_of_nodup_map hstems hplanned hfirst hstem

theorem fieldClash_eq_none (h : ∀ other ∈ ahead, other.field ≠ planned.field) :
    fieldClash ahead planned = none := by
  rw [fieldClash, Option.map_eq_none_iff, List.find?_eq_none]
  simpa using h

theorem fieldClash_eq_some (hfirst : first ∈ ahead) (h : first.field = planned.field)
    (hunique : ∀ other ∈ ahead, other.field = planned.field → other = first) :
    fieldClash ahead planned =
      some (.duplicateField first.member.name planned.member.name planned.field) := by
  rw [fieldClash, find?_eq_some_of_unique hfirst (by simpa using h) (by simpa using hunique)]
  rfl

theorem methodClash_eq_none (h : ∀ other ∈ ahead, method ∉ other.setters) :
    methodClash ahead planned method = none := by
  rw [methodClash, Option.map_eq_none_iff, List.find?_eq_none]
  simpa using h

theorem methodClash_eq_some (hfirst : first ∈ ahead) (h : method ∈ first.setters)
    (hunique : ∀ other ∈ ahead, method ∈ other.setters → other = first) :
    methodClash ahead planned method =
      some (.duplicateMethod first.member.name planned.member.name method) := by
  rw [methodClash, find?_eq_some_of_unique hfirst (by simpa using h) (by simpa using hunique)]
  rfl

/-- A member that fits clashes by its field or by a method. -/
theorem clash_of_fits (h : planned.IsResolved) (hfits : planned.member.Fits) :
    clash ahead planned = (fieldClash ahead planned).or
      ((methodClash ahead planned planned.valueSetter).or
        (methodClash ahead planned planned.producerSetter)) :=
  if_neg (mt h.reserved_iff.1 (not_or.2 ⟨hfits.stem_ne_factory, hfits.stem_ne_rules⟩))

/-- And where no stem is shared, by a method. -/
theorem clash_of_stems (hahead : ∀ other ∈ ahead, other.IsResolved) (h : planned.IsResolved)
    (hfits : planned.member.Fits)
    (hstems : ∀ other ∈ ahead, other.member.stem ≠ planned.member.stem) :
    clash ahead planned = (methodClash ahead planned planned.valueSetter).or
      (methodClash ahead planned planned.producerSetter) := by
  rw [clash_of_fits h hfits, fieldClash_eq_none fun other hother =>
    mt ((hahead other hother).field_eq_field_iff h).1 (hstems other hother), Option.none_or]

/-- **A compatible member does not clash** with those ahead of it. -/
theorem clash_eq_none (hahead : ∀ other ∈ ahead, other.IsResolved) (h : planned.IsResolved)
    (hfits : planned.member.Fits)
    (hothers : ∀ other ∈ ahead, other.member.stem ≠ planned.member.stem ∧
      planned.member.stem ≠ other.member.stem ++ "_fn" ∧
        other.member.stem ≠ planned.member.stem ++ "_fn") :
    clash ahead planned = none := by
  rw [clash_of_stems hahead h hfits fun other hother => (hothers other hother).1,
    methodClash_eq_none, methodClash_eq_none]
  · rfl
  · intro other hother
    obtain ⟨hstem, -, hproducer⟩ := hothers other hother
    rw [producerSetter_mem_setters, h.stem, (hahead other hother).stem, not_or]
    exact ⟨hproducer, hstem.symm⟩
  · intro other hother
    obtain ⟨hstem, hvalue, -⟩ := hothers other hother
    rw [valueSetter_mem_setters, h.stem, (hahead other hother).stem, not_or]
    exact ⟨hstem.symm, hvalue⟩

/-- A reserved stem is a reserved field. -/
theorem clash_of_reserved (h : planned.IsResolved)
    (hstem : planned.member.stem = factoryField ∨ planned.member.stem = rulesField) :
    clash ahead planned = some (.reservedField planned.member.name planned.member.stem) := by
  have hfield : planned.field = planned.member.stem := by
    rcases hstem with hstem | hstem <;> rw [hstem]
    · exact (h.field_eq_iff (by decide)).2 (h.stem.trans hstem)
    · exact (h.field_eq_iff (by decide)).2 (h.stem.trans hstem)
  rw [clash, if_pos (h.reserved_iff.2 hstem), hfield]

section Compatible

variable (hahead : ∀ other ∈ ahead, other.IsResolved) (h : planned.IsResolved)
variable (hcompatible : Member.Compatible (ahead.map PlannedMember.member))
variable (hfits : planned.member.Fits) (hfirst : first ∈ ahead)
include hahead h hcompatible hfits hfirst

/-- A stem that a member ahead has is a field that it has. -/
theorem clash_of_stem (hstem : first.member.stem = planned.member.stem) :
    clash ahead planned =
      some (.duplicateField first.member.name planned.member.name planned.field) := by
  have hunique : ∀ other ∈ ahead, other.field = planned.field → other = first :=
    fun other hother hfield => eq_of_stem hcompatible hother hfirst
      ((((hahead other hother).field_eq_field_iff h).1 hfield).trans hstem.symm)
  rw [clash_of_fits h hfits, fieldClash_eq_some hfirst
    (((hahead first hfirst).field_eq_field_iff h).2 hstem) hunique]
  rfl

variable (hstems : ∀ other ∈ ahead, other.member.stem ≠ planned.member.stem)
include hstems

/-- Where no stem is shared, a value setter can be a producer setter of one
member ahead. -/
theorem clash_of_valueSetter (hstem : planned.member.stem = first.member.stem ++ "_fn") :
    clash ahead planned =
      some (.duplicateMethod first.member.name planned.member.name planned.valueSetter) := by
  have hiff : ∀ other ∈ ahead, planned.valueSetter ∈ other.setters ↔
      planned.member.stem = other.member.stem ++ "_fn" := by
    intro other hother
    rw [valueSetter_mem_setters, h.stem, (hahead other hother).stem]
    exact or_iff_right (hstems other hother).symm
  have hunique : ∀ other ∈ ahead, planned.valueSetter ∈ other.setters → other = first :=
    fun other hother hmem => eq_of_stem hcompatible hother hfirst
      (append_producer_injective (((hiff other hother).1 hmem).symm.trans hstem))
  rw [clash_of_stems hahead h hfits hstems,
    methodClash_eq_some hfirst ((hiff first hfirst).2 hstem) hunique]
  rfl

/-- And if it is not, the producer setter can be a value setter of one. -/
theorem clash_of_producerSetter
    (hvalue : ∀ other ∈ ahead, planned.member.stem ≠ other.member.stem ++ "_fn")
    (hstem : first.member.stem = planned.member.stem ++ "_fn") :
    clash ahead planned =
      some (.duplicateMethod first.member.name planned.member.name planned.producerSetter) := by
  have hnone : ∀ other ∈ ahead, planned.valueSetter ∉ other.setters := by
    intro other hother
    rw [valueSetter_mem_setters, h.stem, (hahead other hother).stem, not_or]
    exact ⟨(hstems other hother).symm, hvalue other hother⟩
  have hiff : ∀ other ∈ ahead, planned.producerSetter ∈ other.setters ↔
      other.member.stem = planned.member.stem ++ "_fn" := by
    intro other hother
    rw [producerSetter_mem_setters, h.stem, (hahead other hother).stem]
    exact or_iff_left (hstems other hother).symm
  have hunique : ∀ other ∈ ahead, planned.producerSetter ∈ other.setters → other = first :=
    fun other hother hmem => eq_of_stem hcompatible hother hfirst
      (((hiff other hother).1 hmem).trans hstem.symm)
  rw [clash_of_stems hahead h hfits hstems, methodClash_eq_none hnone,
    methodClash_eq_some hfirst ((hiff first hfirst).2 hstem) hunique]
  rfl

end Compatible

/-- **A member with a fault is not planned**, and the fault is the error. -/
theorem ofMembers_cons_of_fault (hahead : ∀ other ∈ ahead, other.IsResolved)
    (hcompatible : Member.Compatible (ahead.map PlannedMember.member))
    (hfault : next.Fault (ahead.map PlannedMember.member) error) (rest : List Member) :
    ofMembers ahead (next :: rest) = .error error := by
  -- a member that is resolved fails by a clash, any other one by itself
  have hclash : next.Nameable → (∀ planned : PlannedMember, planned.IsResolved →
      planned.member = next → clash ahead planned = some error) →
      ofMembers ahead (next :: rest) = .error error := by
    intro hnames hclash
    obtain ⟨planned, hplanned⟩ := exists_ofMember_eq_ok hnames ahead.length
    obtain ⟨-, hmember, hresolved⟩ := ofMember_eq_ok_iff.1 hplanned
    exact ofMembers_cons_of_clash hplanned (hclash planned hresolved hmember)
  cases hfault with
  | emptyName h =>
    rw [List.length_map]
    exact ofMembers_cons_of_error (by simp [ofMember, h])
  | emptyType hname h =>
    have hblank : Text.isBlank next.typeName = true := List.all_eq_true.2 h
    exact ofMembers_cons_of_error (by simp [ofMember, hname, hblank])
  | invalidName hname htype h =>
    have hblank : Text.isBlank next.typeName = false := Text.isBlank_eq_false_iff.2 htype
    refine ofMembers_cons_of_error ?_
    simp only [ofMember, hname, hblank, if_false, Bool.false_eq_true]
    split
    · next access field haccess hfield =>
      rw [haccess, Member.stem, hfield] at h
      simp at h
    · rfl
  | reservedField hnames h =>
    refine hclash hnames fun planned hresolved hmember => ?_
    subst hmember
    exact clash_of_reserved hresolved h
  | duplicateField hfits hmem h hfield =>
    obtain ⟨first, hfirst, rfl⟩ := List.mem_map.1 hmem
    refine hclash hfits.toNameable fun planned hresolved hmember => ?_
    subst hmember
    obtain rfl : planned.field = _ :=
      (hresolved.field_eq_iff hfield).2 hresolved.stem
    exact clash_of_stem hahead hresolved hcompatible hfits hfirst h
  | duplicateValueSetter hfits hstems hmem h =>
    obtain ⟨first, hfirst, rfl⟩ := List.mem_map.1 hmem
    refine hclash hfits.toNameable fun planned hresolved hmember => ?_
    subst hmember
    rw [← hresolved.stem]
    exact clash_of_valueSetter hahead hresolved hcompatible hfits hfirst
      (fun other hother => hstems _ (List.mem_map_of_mem hother)) h
  | duplicateProducerSetter hfits hstems hvalue hmem h =>
    obtain ⟨first, hfirst, rfl⟩ := List.mem_map.1 hmem
    refine hclash hfits.toNameable fun planned hresolved hmember => ?_
    subst hmember
    rw [← hresolved.stem]
    exact clash_of_producerSetter hahead hresolved hcompatible hfits hfirst
      (fun other hother => hstems _ (List.mem_map_of_mem hother))
      (fun other hother => hvalue _ (List.mem_map_of_mem hother)) h

/-- A member that is compatible with those ahead of it is planned. -/
theorem ofMembers_cons_of_compatible (hahead : ∀ other ∈ ahead, other.IsResolved)
    (h : Member.Compatible (ahead.map PlannedMember.member ++ [next])) (rest : List Member) :
    ∃ planned : PlannedMember, planned.IsResolved ∧ planned.member = next ∧
      ofMembers ahead (next :: rest) =
        (ofMembers (ahead ++ [planned]) rest).map (planned :: ·) := by
  obtain ⟨-, hfits, hothers⟩ := Member.compatible_concat_iff.1 h
  obtain ⟨planned, hplanned⟩ := exists_ofMember_eq_ok hfits.toNameable ahead.length
  obtain ⟨-, rfl, hresolved⟩ := ofMember_eq_ok_iff.1 hplanned
  exact ⟨planned, hresolved, rfl, ofMembers_cons_of_ok hplanned
    (clash_eq_none hahead hresolved hfits fun other hother =>
      hothers _ (List.mem_map_of_mem hother))⟩

/-- **Compatible members are planned.** -/
theorem exists_ofMembers_eq_ok (hahead : ∀ other ∈ ahead, other.IsResolved)
    (h : Member.Compatible (ahead.map PlannedMember.member ++ members)) :
    ∃ plan, ofMembers ahead members = .ok plan := by
  induction members generalizing ahead with
  | nil => exact ⟨[], rfl⟩
  | cons next rest ih =>
    rw [← List.singleton_append, ← List.append_assoc] at h
    obtain ⟨planned, hresolved, rfl, heq⟩ := ofMembers_cons_of_compatible hahead h.of_append rest
    have hahead' : ∀ other ∈ ahead ++ [planned], other.IsResolved := by
      simpa [or_imp, forall_and] using ⟨hahead, hresolved⟩
    obtain ⟨later, hlater⟩ := ih hahead' (by simpa using h)
    exact ⟨planned :: later, by rw [heq, hlater]; rfl⟩

/-- **And the first fault ends the plan.** -/
theorem ofMembers_of_fault (hahead : ∀ other ∈ ahead, other.IsResolved)
    (h : Member.Compatible (ahead.map PlannedMember.member ++ before))
    (hfault : next.Fault (ahead.map PlannedMember.member ++ before) error) (after : List Member) :
    ofMembers ahead (before ++ next :: after) = .error error := by
  induction before generalizing ahead with
  | nil =>
    rw [List.append_nil] at h hfault
    exact ofMembers_cons_of_fault hahead h hfault after
  | cons first rest ih =>
    rw [← List.singleton_append, ← List.append_assoc] at h hfault
    obtain ⟨planned, hresolved, rfl, heq⟩ :=
      ofMembers_cons_of_compatible hahead h.of_append (rest ++ next :: after)
    have hahead' : ∀ other ∈ ahead ++ [planned], other.IsResolved := by
      simpa [or_imp, forall_and] using ⟨hahead, hresolved⟩
    rw [List.cons_append, heq, ih hahead' (by simpa using h) (by simpa using hfault)]
    rfl

end PlannedMember

namespace Plan

variable {spec : BuilderSpec} {error : EmitError}

/-- A well-formed specification has a plan. -/
theorem exists_ofSpec_eq_ok (h : spec.WellFormed) : ∃ plan, ofSpec spec = .ok plan := by
  have hplain := Text.isPlainName_iff.1 h.name_plain
  have hblank := Text.isBlank_eq_false_iff.2 h.target_shows
  have hnone : ∀ other ∈ ([] : List PlannedMember), other.IsResolved := by simp
  obtain ⟨members, hmembers⟩ :=
    PlannedMember.exists_ofMembers_eq_ok hnone (by simpa using h.compatible)
  rw [ofSpec_eq, if_neg h.name_plain.ne_empty, if_neg (not_not.2 hplain),
    if_neg (by simp [hblank]), hmembers]
  exact ⟨_, rfl⟩

/-- A specification with a fault has none. -/
theorem ofSpec_of_fault (h : spec.FirstFault error) : ofSpec spec = .error error := by
  rw [ofSpec_eq]
  cases h with
  | emptyName h => rw [if_pos h]
  | invalidName hname h =>
    rw [Text.isPlainName_iff] at h
    rw [if_neg hname, if_pos h]
  | emptyTarget hname h =>
    have hplain := Text.isPlainName_iff.1 hname
    have hblank : Text.isBlank spec.target = true := List.all_eq_true.2 h
    rw [if_neg hname.ne_empty, if_neg (not_not.2 hplain), if_pos hblank]
  | member hname htarget hmembers hbefore hfault =>
    have hplain := Text.isPlainName_iff.1 hname
    have hblank := Text.isBlank_eq_false_iff.2 htarget
    have hnone : ∀ other ∈ ([] : List PlannedMember), other.IsResolved := by simp
    rw [if_neg hname.ne_empty, if_neg (not_not.2 hplain), if_neg (by simp [hblank]), hmembers,
      PlannedMember.ofMembers_of_fault hnone (by simpa using hbefore) (by simpa using hfault)]
    rfl

end Plan

namespace BuilderSpec

/-- A specification is well-formed or has a first fault. -/
theorem wellFormed_or_fault (spec : BuilderSpec) :
    spec.WellFormed ∨ ∃ error, spec.FirstFault error := by
  by_cases hempty : spec.name = ""
  · exact .inr ⟨_, .emptyName hempty⟩
  by_cases hname : Text.IsPlainName spec.name
  swap
  · exact .inr ⟨_, .invalidName hempty hname⟩
  by_cases htarget : ∃ c ∈ spec.target.toList, Text.isSpace c = false
  swap
  · exact .inr ⟨_, .emptyTarget hname (by simpa using htarget)⟩
  rcases Member.compatible_or_fault spec.members with
    hmembers | ⟨before, member, after, error, hmembers, hbefore, hfault⟩
  · exact .inl ⟨hname, htarget, hmembers⟩
  · exact .inr ⟨error, .member hname htarget hmembers hbefore hfault⟩

end BuilderSpec

/-- There is no text exactly if there is no plan, and for the same reason. -/
theorem emitBuilder_eq_error_iff {spec : BuilderSpec} {options : EmitOptions}
    {error : EmitError} :
    emitBuilder spec options = .error error ↔ Plan.ofSpec spec = .error error := by
  unfold emitBuilder
  cases Plan.ofSpec spec <;> simp [bind, Except.bind, pure, Except.pure]

/-- A well-formed specification is written. -/
theorem exists_emitBuilder_eq_ok {spec : BuilderSpec} (h : spec.WellFormed)
    (options : EmitOptions) : ∃ text, emitBuilder spec options = .ok text := by
  obtain ⟨plan, hplan⟩ := Plan.exists_ofSpec_eq_ok h
  exact ⟨_, emitBuilder_eq_ok_iff.2 ⟨plan, hplan, rfl⟩⟩

/-- And what is written is well-formed. -/
theorem wellFormed_of_emitBuilder {spec : BuilderSpec} {options : EmitOptions} {text : String}
    (h : emitBuilder spec options = .ok text) : spec.WellFormed := by
  rcases spec.wellFormed_or_fault with hwell | ⟨error, hfault⟩
  · exact hwell
  · rw [emitBuilder_eq_error_iff.2 (Plan.ofSpec_of_fault hfault)] at h
    cases h

/-- **Emission accepts exactly the well-formed specifications**, and of any
other it gives the first fault. -/
theorem emission_accepts_wellFormed (spec : BuilderSpec) (options : EmitOptions) :
    ((∃ text, emitBuilder spec options = .ok text) ↔ spec.WellFormed) ∧
      ∀ error, emitBuilder spec options = .error error ↔ spec.FirstFault error := by
  refine ⟨⟨fun ⟨_, h⟩ => wellFormed_of_emitBuilder h, fun h => exists_emitBuilder_eq_ok h options⟩,
    fun error => ⟨fun h => ?_, fun h => emitBuilder_eq_error_iff.2 (Plan.ofSpec_of_fault h)⟩⟩
  rcases spec.wellFormed_or_fault with hwell | ⟨other, hfault⟩
  · obtain ⟨text, htext⟩ := exists_emitBuilder_eq_ok hwell options
    rw [htext] at h
    cases h
  · -- there is one error only
    rw [emitBuilder_eq_error_iff.2 (Plan.ofSpec_of_fault hfault)] at h
    exact Except.error.inj h ▸ hfault

/-- A producer setter that is another member's value setter. -/
example : PlannedMember.ofMembers []
      [⟨"Value", "u8", .settable, .anywhere⟩, ⟨"ValueFn", "u8", .settable, .anywhere⟩] =
    .error (.duplicateMethod "Value" "ValueFn" "with_value_fn") := by
  decide +kernel

end BuilderForge
