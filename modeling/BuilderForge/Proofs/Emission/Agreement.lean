import BuilderForge.Proofs.Emission.Acceptance
import BuilderForge.Proofs.Emission.Sections

/-!
# The sections of a builder agree

What is read in the text of a builder is the outline of its specification
(`Plan.read?_render`): whichever section one looks at, it has the same
members, in the same order, under the same names. As the members of a
specification that is written have stems of their own, no two fields and no
two methods of the outline share a name.
-/

namespace BuilderForge

open Layout

namespace Plan

variable {plan : Plan} {options : EmitOptions}

/-! ## The header -/

theorem linesAll_header : linesAll 0 (plan.header options) =
    ["// <auto-generated>", options.banner, "// </auto-generated>",
      "// namespace: " ++ (if plan.scope = "" then "(root)" else plan.scope), "",
      "/// Builder for `" ++ (plan.target ++ "`.")] := by
  have hmark (rest : String) :
      "/// Builder for " ++ ("`" ++ rest) = "/// Builder for `" ++ rest := by
    rw [← String.append_assoc, String.append_left_inj]
    simp only [String.reduceAppend]
  simp only [header, generatedMark, quoted, linesAll, lines, indentation_zero,
    String.empty_append, List.cons_append, List.nil_append, String.append_assoc, hmark,
    String.reduceAppend]

theorem exists_banner_eq (options : EmitOptions) :
    ∃ rest, options.banner = "//     Generated by " ++ rest := by
  unfold EmitOptions.banner
  simp only [String.append_assoc]
  exact ⟨_, rfl⟩

/-- A line of the header is a comment or blank. -/
theorem not_isPrefixOf_of_mem_header {l : String} (hl : l ∈ linesAll 0 (plan.header options))
    {c : Char} (hc : c ≠ '/') {cs : List Char} : ¬(c :: cs) <+: l.toList := by
  obtain ⟨rest, hbanner⟩ := exists_banner_eq options
  simp only [linesAll_header, hbanner, List.mem_cons, List.not_mem_nil, or_false] at hl
  rcases hl with rfl | rfl | rfl | rfl | rfl | rfl
  · exact Text.not_cons_isPrefixOf_ofList hc
  · exact Text.not_cons_isPrefixOf_append hc
  · exact Text.not_cons_isPrefixOf_ofList hc
  · exact Text.not_cons_isPrefixOf_append hc
  · simp
  · exact Text.not_cons_isPrefixOf_append hc

/-- The lines of a builder: its header, the struct, the methods, the default. -/
theorem linesAll_layout : linesAll 0 (plan.layout options) =
    linesAll 0 (plan.header options) ++ ((plan.fields options).lines 0 ++
      "" :: ((plan.methods options).lines 0 ++ "" :: linesAll 0 [plan.footer])) := by
  simp only [layout, linesAll_append, linesAll, lines, List.singleton_append]

theorem read_scope : (linesAll 0 (plan.layout options)).findSome? (Text.after? "// namespace: ") =
    some (if plan.scope = "" then "(root)" else plan.scope) := by
  obtain ⟨rest, hbanner⟩ := exists_banner_eq options
  have hopening : Text.after? "// namespace: " "// <auto-generated>" = none :=
    Text.after?_eq_none (Text.not_isPrefixOf_ofList (by decide))
  have hgenerator : Text.after? "// namespace: " ("//     Generated by " ++ rest) = none :=
    Text.after?_eq_none (Text.not_isPrefixOf_of_differ (by decide))
  have hclosing : Text.after? "// namespace: " "// </auto-generated>" = none :=
    Text.after?_eq_none (Text.not_isPrefixOf_ofList (by decide))
  simp only [linesAll_layout, linesAll_header, hbanner, List.cons_append, List.findSome?_cons,
    hopening, hgenerator, hclosing, Text.after?_append]

theorem read_target :
    (linesAll 0 (plan.layout options)).findSome? (Text.between? "/// Builder for `" "`.") =
      some plan.target := by
  obtain ⟨rest, hbanner⟩ := exists_banner_eq options
  have hopening : Text.between? "/// Builder for `" "`." "// <auto-generated>" = none :=
    Text.between?_eq_none (Text.not_isPrefixOf_ofList (by decide))
  have hgenerator :
      Text.between? "/// Builder for `" "`." ("//     Generated by " ++ rest) = none :=
    Text.between?_eq_none (Text.not_isPrefixOf_of_differ (by decide))
  have hclosing : Text.between? "/// Builder for `" "`." "// </auto-generated>" = none :=
    Text.between?_eq_none (Text.not_isPrefixOf_ofList (by decide))
  have hscope (rest : String) :
      Text.between? "/// Builder for `" "`." ("// namespace: " ++ rest) = none :=
    Text.between?_eq_none (Text.not_isPrefixOf_of_differ (by decide))
  have hblank : Text.between? "/// Builder for `" "`." "" = none := by decide
  simp only [linesAll_layout, linesAll_header, hbanner, List.cons_append, List.findSome?_cons,
    hopening, hgenerator, hclosing, hscope, hblank, Text.between?_append]

theorem read_builder :
    (linesAll 0 (plan.layout options)).findSome? (Text.between? "pub struct " " \x7b") =
      some plan.builder := by
  have hheader : ∀ l ∈ linesAll 0 (plan.header options),
      Text.between? "pub struct " " \x7b" l = none := fun l hl =>
    Text.between?_eq_none (not_isPrefixOf_of_mem_header hl (by decide))
  rw [linesAll_layout, List.findSome?_append, List.findSome?_eq_none_iff.2 hheader,
    Option.none_or, fields, lines_braced, List.cons_append, List.findSome?_cons,
    indentation_zero, String.empty_append, String.append_assoc, Text.between?_append]

/-! ## The struct and the methods -/

/-- **The struct declares the fields.** -/
theorem read_fields (h : ∀ planned ∈ plan.members, planned.IsResolved) (options : EmitOptions) :
    (Text.blockOf 0 ("pub struct " ++ plan.builder) (linesAll 0 (plan.layout options))).mapM
      (Outline.readField? 1) = some plan.fieldNames := by
  have hprefix : "pub struct ".toList <+:
      (indentation 0 ++ ("pub struct " ++ plan.builder ++ " \x7b")).toList := by
    simp
  have hbefore : indentation 0 ++ ("pub struct " ++ plan.builder ++ " \x7b") ∉
      linesAll 0 (plan.header options) := fun hmem =>
    not_isPrefixOf_of_mem_header hmem (by decide) hprefix
  have hfactory : ": Box<dyn Fn() -> " = ": " ++ "Box<dyn Fn() -> " := by
    simp only [String.reduceAppend]
  have hmember : ": Option<" = ": " ++ "Option<" := by simp only [String.reduceAppend]
  rw [linesAll_layout, fields, blockOf_braced hbefore]
  simp only [hfactory, hmember, String.append_assoc]
  exact readFields h

theorem blockOf_methods :
    Text.blockOf 0 ("impl " ++ plan.builder) (linesAll 0 (plan.layout options)) =
      linesAll 1 (plan.constructors options ++ plan.members.flatMap setters ++
        plan.build options) := by
  obtain ⟨cs, hopening⟩ :
      ∃ cs, (indentation 0 ++ ("impl " ++ plan.builder ++ " \x7b")).toList = 'i' :: cs :=
    ⟨_, by simp; rfl⟩
  have hprefix :
      'i' :: cs <+: (indentation 0 ++ ("impl " ++ plan.builder ++ " \x7b")).toList :=
    hopening ▸ List.prefix_refl ('i' :: cs)
  have hbefore : indentation 0 ++ ("impl " ++ plan.builder ++ " \x7b") ∉
      linesAll 0 (plan.header options) ++ ((plan.fields options).lines 0 ++ [""]) := by
    intro hmem
    rw [fields, lines_braced, List.mem_append, List.mem_append, List.mem_cons, List.mem_append,
      List.mem_singleton, List.mem_singleton] at hmem
    rcases hmem with hheader | (hstruct | hfield | hclosing) | hblank
    · exact not_isPrefixOf_of_mem_header hheader (by decide) hprefix
    · rw [hstruct] at hopening
      simp at hopening
    · exact not_isPrefixOf_of_mem_linesAll hfield Nat.zero_lt_one (by decide) hprefix
    · rw [hclosing] at hopening
      simp at hopening
    · rw [hblank] at hopening
      simp at hopening
  have hlines : linesAll 0 (plan.layout options) =
      (linesAll 0 (plan.header options) ++ ((plan.fields options).lines 0 ++ [""])) ++
        ((plan.methods options).lines 0 ++ "" :: linesAll 0 [plan.footer]) := by
    rw [linesAll_layout]
    simp
  rw [hlines, methods, blockOf_braced hbefore]

/-- Every method begins like one, and every comment too. -/
theorem evident_methods : ∀ layout ∈ plan.constructors options ++ plan.members.flatMap setters ++
    plan.build options, Method.Evident layout := by
  intro layout hlayout
  rw [List.mem_append, List.mem_append] at hlayout
  rcases hlayout with (hlayout | hlayout) | hlayout
  · have hdefault : "/// Creates a builder that starts from `Default::default()`." =
        "///" ++ " Creates a builder that starts from `Default::default()`." := by
      simp only [String.reduceAppend]
    have hfactory :
        "/// Creates a builder that starts from instances produced by `factory`." =
          "///" ++ " Creates a builder that starts from instances produced by `factory`." := by
      simp only [String.reduceAppend]
    revert layout
    simp only [constructors, opening_new, opening_fromFactory, hdefault, hfactory,
      String.append_assoc, List.forall_mem_cons, Method.evident_blank, Method.evident_comment,
      Method.evident_braced, true_and, List.not_mem_nil, false_imp_iff, implies_true]
  · obtain ⟨planned, -, hplanned⟩ := List.mem_flatMap.1 hlayout
    clear hlayout
    revert layout
    simp only [setters, String.append_assoc, List.forall_mem_cons, Method.evident_blank,
      Method.evident_braced, true_and, List.not_mem_nil, false_imp_iff, implies_true]
  · have hreturns : "/// Returns a configured instance of " =
        "///" ++ " Returns a configured instance of " := by
      simp only [String.reduceAppend]
    revert layout
    simp only [build, opening_build, hreturns, String.append_assoc, List.forall_mem_cons,
      Method.evident_blank, Method.evident_comment, Method.evident_braced, true_and,
      List.not_mem_nil, false_imp_iff, implies_true]

/-- **What the methods of a builder are**: two constructors, the setters of
the members, and `build`. -/
structure MethodsShown (plan : Plan) (new fromFactory build : Method) (others : List Method) :
    Prop where
  new_name : new.name = "new"
  fromFactory_name : fromFactory.name = "from_factory"
  build_name : build.name = "build"
  initialised : (Text.blockOf 2 "Self" fromFactory.body).mapM (Outline.readField? 3) =
    some plan.fieldNames
  names : others.map Method.name = plan.members.flatMap fun planned =>
    [planned.member.valueSetter, planned.member.producerSetter]
  setters : others.mapM Outline.readSetter? =
    some (plan.members.flatMap fun planned => planned.member.settersShown)
  steps : (Text.paragraphs build.body).mapM Outline.readStep? =
    some (.start :: (plan.members.map (fun planned => planned.member.stepShown) ++
      [.check, .finish]))

theorem exists_methods (h : ∀ planned ∈ plan.members, planned.IsResolved)
    (options : EmitOptions) : ∃ new fromFactory build others,
    Method.readFrom? none
        (Text.blockOf 0 ("impl " ++ plan.builder) (linesAll 0 (plan.layout options))) =
          some (new :: fromFactory :: (others ++ [build])) ∧
      plan.MethodsShown new fromFactory build others := by
  obtain ⟨new, fromFactory, hconstructors, hnew, hfromFactory, hfields⟩ :=
    exists_constructors h options
  obtain ⟨build, hmethod, hbuild, hsteps⟩ := exists_build h options
  refine ⟨new, fromFactory, build,
    plan.members.flatMap fun planned => (Plan.setters planned).filterMap Method.ofLayout?,
    ?methods, hnew, hfromFactory, hbuild, hfields, ?names, ?setters, hsteps⟩
  case methods =>
    rw [blockOf_methods, Method.readFrom?_linesAll evident_methods, List.filterMap_append,
      List.filterMap_append, hconstructors, hmethod, List.filterMap_flatMap]
    rfl
  case names =>
    rw [List.map_flatMap]
    exact List.flatMap_congr fun planned hmem => names_setters (h planned hmem)
  case setters => exact mapM_flatMap_eq_some fun planned hmem => read_setters (h planned hmem)

/-- No setter has the name of a fixed method. -/
theorem with_append_notMem_fixed {stem : String} : "with_" ++ stem ∉ Method.fixed := by
  intro hmem
  have hfixed : ∀ name ∈ Method.fixed, name.toList.head? ≠ some 'w' := by decide
  exact hfixed _ hmem (by simp)

namespace MethodsShown

variable {new fromFactory build : Method} {others : List Method}
variable (h : plan.MethodsShown new fromFactory build others)
include h

/-- So every method can be found by its name. -/
theorem name_notMem_fixed : ∀ method ∈ others, method.name ∉ Method.fixed := by
  intro method hmem
  have hname : method.name ∈ others.map Method.name := List.mem_map_of_mem hmem
  rw [h.names, List.mem_flatMap] at hname
  obtain ⟨planned, -, hname⟩ := hname
  rcases List.mem_pair.1 hname with hname | hname <;> rw [hname]
  · exact with_append_notMem_fixed
  · rw [Member.producerSetter, String.append_assoc]
    exact with_append_notMem_fixed

theorem find?_fromFactory :
    (new :: fromFactory :: (others ++ [build])).find? (·.name = "from_factory") =
      some fromFactory := by
  rw [List.find?_cons_of_neg, List.find?_cons_of_pos]
  · simp [h.fromFactory_name]
  · simp [h.new_name]

theorem find?_build :
    (new :: fromFactory :: (others ++ [build])).find? (·.name = "build") = some build := by
  have hothers : others.find? (·.name = "build") = none := by
    rw [List.find?_eq_none]
    intro method hmem hname
    refine h.name_notMem_fixed method hmem ?_
    simp [of_decide_eq_true hname, Method.fixed]
  rw [List.find?_cons_of_neg, List.find?_cons_of_neg, List.find?_append, hothers,
    Option.none_or, List.find?_cons_of_pos]
  · simp [h.build_name]
  · simp [h.fromFactory_name]
  · simp [h.new_name]

theorem filter_notMem_fixed :
    (new :: fromFactory :: (others ++ [build])).filter (·.name ∉ Method.fixed) = others := by
  have hothers : others.filter (·.name ∉ Method.fixed) = others :=
    List.filter_eq_self.2 fun method hmem => decide_eq_true (h.name_notMem_fixed method hmem)
  rw [List.filter_cons_of_neg, List.filter_cons_of_neg, List.filter_append, hothers,
    List.filter_cons_of_neg, List.filter_nil, List.append_nil]
  all_goals simp [h.build_name, h.fromFactory_name, h.new_name, Method.fixed]

end MethodsShown

/-! ## The outline -/

/-- **What is read in the text is the outline of the specification.** -/
theorem read?_render {spec : BuilderSpec} (h : plan.IsOf spec) (hspec : spec.OnLines)
    (hoptions : options.OnLines) :
    Outline.read? (render (plan.layout options)) = some spec.outline := by
  have hlines := linesOf_render (h.onLines hspec) hoptions
  obtain ⟨new, fromFactory, build, others, hmethods, hshown⟩ := exists_methods h.resolved options
  have hnames : plan.fieldNames = spec.fieldNames := by
    rw [fieldNames, BuilderSpec.fieldNames, ← h.members, List.map_map]
    rfl
  simp only [Outline.read?, hlines, read_scope, read_target, read_builder, hmethods,
    read_fields h.resolved options, hshown.find?_fromFactory, hshown.find?_build,
    hshown.filter_notMem_fixed, hshown.initialised, hshown.setters, hshown.steps,
    Option.bind_eq_bind, Option.bind_some, Option.pure_def]
  simp only [BuilderSpec.outline, BuilderSpec.methodNames, BuilderSpec.shownScope, hnames,
    List.map_cons, List.map_append, List.map_nil, hshown.new_name, hshown.fromFactory_name,
    hshown.build_name, hshown.names, ← h.members, ← h.scope, ← h.target, ← h.builder,
    List.map_map, List.flatMap_map]
  rfl

end Plan

/-! ## No name twice -/

namespace Member

variable {member other : Member}

/-- A member that can be named has its names. -/
theorem Nameable.escape_stem (h : member.Nameable) :
    Text.escape member.stem = some member.fieldName := by
  obtain ⟨field, hfield⟩ := Option.isSome_iff_exists.1 h.stem_escapes
  rw [fieldName, hfield, Option.getD_some]

theorem Nameable.escape_name (h : member.Nameable) :
    Text.escape member.name = some member.accessName := by
  obtain ⟨access, haccess⟩ := Option.isSome_iff_exists.1 h.name_escapes
  rw [accessName, haccess, Option.getD_some]

/-- A field tells the stem. -/
theorem Nameable.fieldName_inj (h : member.Nameable) (hother : other.Nameable) :
    member.fieldName = other.fieldName ↔ member.stem = other.stem := by
  refine ⟨fun heq => ?_, fun heq => by rw [fieldName, fieldName, heq]⟩
  exact Text.escape_injective (heq ▸ h.escape_stem) hother.escape_stem

/-- A member that fits has none of the fixed fields. -/
theorem Fits.fieldName_ne (h : member.Fits) :
    member.fieldName ≠ factoryField ∧ member.fieldName ≠ rulesField := by
  have hfactory : Text.escape factoryField = some factoryField := by decide
  have hrules : Text.escape rulesField = some rulesField := by decide
  have hescape := h.toNameable.escape_stem
  constructor
  · intro heq
    exact h.stem_ne_factory (Text.escape_injective (heq ▸ hescape) hfactory)
  · intro heq
    exact h.stem_ne_rules (Text.escape_injective (heq ▸ hescape) hrules)

/-- Compatible members have setters of their own. -/
theorem Compatible.setters_nodup {members : List Member} (h : Compatible members) :
    (members.flatMap fun member => [member.valueSetter, member.producerSetter]).Nodup := by
  rw [List.nodup_flatMap]
  constructor
  · intro member hmem
    have hproducer := h.stem_ne_producer member hmem member hmem
    simp [valueSetter, producerSetter, String.append_assoc, hproducer]
  · refine (List.pairwise_map.1 h.stems_distinct).imp_of_mem fun {a b} ha hb hne => ?_
    have hvalue := h.stem_ne_producer a ha b hb
    have hproducer := h.stem_ne_producer b hb a ha
    simp [Function.onFun, valueSetter, producerSetter, String.append_assoc, hne.symm,
      hvalue.symm, hproducer]

end Member

namespace BuilderSpec

variable {spec : BuilderSpec} (h : spec.WellFormed)
include h

theorem WellFormed.fieldNames_nodup : spec.fieldNames.Nodup := by
  have hfits := h.compatible.fits
  have hfactory : factoryField ∉ rulesField :: spec.members.map Member.fieldName := by
    rw [List.mem_cons, List.mem_map, not_or]
    refine ⟨by decide, ?_⟩
    rintro ⟨member, hmem, hfield⟩
    exact (hfits member hmem).fieldName_ne.1 hfield
  have hrules : rulesField ∉ spec.members.map Member.fieldName := by
    rw [List.mem_map]
    rintro ⟨member, hmem, hfield⟩
    exact (hfits member hmem).fieldName_ne.2 hfield
  refine List.nodup_cons.2 ⟨hfactory, List.nodup_cons.2 ⟨hrules, List.pairwise_map.2 ?_⟩⟩
  refine (List.pairwise_map.1 h.compatible.stems_distinct).imp_of_mem fun {a b} ha hb hne => ?_
  exact mt ((hfits a ha).toNameable.fieldName_inj (hfits b hb).toNameable).1 hne

theorem WellFormed.methodNames_nodup : spec.methodNames.Nodup := by
  have hsetters : ∀ name ∈ spec.members.flatMap
      (fun member => [member.valueSetter, member.producerSetter]), name ∉ Method.fixed := by
    intro name hname
    obtain ⟨member, -, hname⟩ := List.mem_flatMap.1 hname
    rcases List.mem_pair.1 hname with rfl | rfl
    · exact Plan.with_append_notMem_fixed
    · rw [Member.producerSetter, String.append_assoc]
      exact Plan.with_append_notMem_fixed
  have hdistinct := h.compatible.setters_nodup
  rw [methodNames]
  generalize spec.members.flatMap _ = names at hsetters hdistinct
  have hnew : "new" ∉ names := fun hmem => hsetters _ hmem (by decide)
  have hfactory : "from_factory" ∉ names := fun hmem => hsetters _ hmem (by decide)
  have hbuild : ∀ name ∈ names, name ≠ "build" := fun name hmem heq =>
    hsetters _ (heq ▸ hmem) (by decide)
  simpa [List.nodup_append, hdistinct, hnew, hfactory] using hbuild

end BuilderSpec

/-- **The sections of a builder agree.** What is read in the text that is
emitted is the outline of the specification: the fields that are declared and
initialised, the setters and what they do, and the steps of `build` all go
through the same members in the same order. The names in it are those that
the names and stems of the members are escaped to, and none of them is the
name of two fields or of two methods. -/
theorem emitted_sections_agree {spec : BuilderSpec} {options : EmitOptions} {text : String}
    (h : emitBuilder spec options = .ok text) (hspec : spec.OnLines) (hoptions : options.OnLines) :
    Outline.read? text = some spec.outline ∧
      (∀ member ∈ spec.members, Text.escape member.stem = some member.fieldName ∧
        Text.escape member.name = some member.accessName) ∧
      spec.fieldNames.Nodup ∧ spec.methodNames.Nodup := by
  have hwell := wellFormed_of_emitBuilder h
  obtain ⟨plan, hplan, rfl⟩ := emitBuilder_eq_ok_iff.1 h
  refine ⟨Plan.read?_render (Plan.ofSpec_eq_ok hplan) hspec hoptions, fun member hmem => ?_,
    hwell.fieldNames_nodup, hwell.methodNames_nodup⟩
  have hnames := (hwell.compatible.fits member hmem).toNameable
  exact ⟨hnames.escape_stem, hnames.escape_name⟩

/-- A builder with a member of each kind, one of them named by a keyword. -/
def orderSpec : BuilderSpec where
  name := "OrderBuilder"
  scope := ""
  target := "Order"
  normal := [⟨"type", "Kind", .settable, .anywhere⟩]
  collections := [⟨"Tags", "Vec<String>", .collection, .inCrate⟩]
  normal_settable := by decide
  normal_ascends := by simp
  collections_collection := by decide
  collections_ascends := by simp

theorem orderSpec_emits : ∃ text, emitBuilder orderSpec .standard = .ok text :=
  ⟨_, emitBuilder_eq_ok_iff.2 ⟨⟨"OrderBuilder", "", "Order",
    [⟨⟨"type", "Kind", .settable, .anywhere⟩, "type", "r#type", "r#type"⟩,
     ⟨⟨"Tags", "Vec<String>", .collection, .inCrate⟩, "tags", "tags", "Tags"⟩]⟩,
    by decide +kernel, rfl⟩⟩

theorem orderSpec_onLines : orderSpec.OnLines where
  name := by decide
  scope := by decide
  target := by decide
  member_name := by decide
  typeName := by decide

theorem standard_onLines : EmitOptions.standard.OnLines where
  generatorName := by decide
  generatorVersion := by decide
  supportModule := by decide

theorem emitted_sections_agree_of_order : ∃ text, emitBuilder orderSpec .standard = .ok text ∧
    Outline.read? text = some {
      scope := "(root)"
      target := "Order"
      builder := "OrderBuilder"
      fields := ["factory", "domain_rules", "r#type", "tags"]
      initialised := ["factory", "domain_rules", "r#type", "tags"]
      methods := ["new", "from_factory", "with_type", "with_type_fn", "with_tags", "with_tags_fn",
        "build"]
      setters := [.handsOn "with_type" "Kind" "with_type_fn", .stores "with_type_fn" "r#type",
        .handsOn "with_tags" "Vec<String>" "with_tags_fn", .stores "with_tags_fn" "tags"]
      steps := [.start, .assign "r#type" "r#type", .push "tags" "Tags", .check, .finish] } := by
  obtain ⟨text, htext⟩ := orderSpec_emits
  refine ⟨text, htext, ?_⟩
  rw [(emitted_sections_agree htext orderSpec_onLines standard_onLines).1]
  decide +kernel

end BuilderForge
