import HookLabel.Proofs.Composition
import HookLabel.Proofs.ImportOrder

/-!
# Running twice

A run leaves a module as it is exactly if it labels no call (`run_value_eq_self_iff`).  So whether a
second run changes what the first one has made depends on what it labels there.  Every call is found
in its place and context again, and every identifier but the helper is imported from where it was
(`source?_run`): all that can be labelled anew is a call of the helper, and that happens if it is
called and imported like a tracked hook (`Module.tracksHelper`).
-/

namespace HookLabel

namespace Module

variable (m : Module) (config : Config)

/-- The labeller of a run, which trusts the imports of the module. -/
def labeller : Labeller := ⟨config, m.imports.resolves⟩

/-! ### One run -/

/-- A run labels what labelling by the imports of the module labels. -/
lemma labelCount_run_eq_label :
    (m.run config).log.labelCount = (m.label config m.imports.resolves).log.labelCount := by
  rw [run, Log.labelCount_append, addWrapperImport]
  split <;> rfl

/-- A run labels the owned calls that have a label. -/
lemma labelCount_run :
    (m.run config).log.labelCount =
      (Tree.ownedCallsOfList m.body).countP fun c => ((m.labeller config).label? c).isSome := by
  rw [labelCount_run_eq_label, label_eq]
  rfl

/-- The import is added exactly if a call was labelled. -/
lemma isDirty_label_iff :
    (m.label config m.imports.resolves).log.isDirty ↔ (m.run config).log.labelCount ≠ 0 := by
  rw [labelCount_run_eq_label, Log.isDirty, decide_eq_true_eq, Nat.pos_iff_ne_zero]

/-- Labelling that labels no call changes nothing. -/
lemma value_label_of_labelCount_eq_zero {resolver : Resolver}
    (h : (m.label config resolver).log.labelCount = 0) :
    (m.label config resolver).value = m := by
  rw [label_eq] at h ⊢
  have hbody : m.body.map (Tree.wrapOwned config.wrapperName
      (Labeller.labels ⟨config, resolver⟩)) = m.body := by
    refine Tree.map_wrapOwned_eq_self fun c hc => Labeller.labels_eq_nil_iff.mpr ?_
    simpa using List.countP_eq_zero.mp h c hc
  rw [hbody]

/-- What a run puts in front of a module: the import of the helper, if it labels a call. -/
def injected : List Tree :=
  if (m.run config).log.labelCount = 0 then []
  else [.wrapperImport config.wrapperName config.wrapperSource]

/-- What a run makes of a module: every owned call is wrapped with its label if it has one, and
behind what is put in front the items stand in their places. -/
lemma run_value :
    (m.run config).value =
      { m with
        body := m.injected config ++
          m.body.map (Tree.wrapOwned config.wrapperName (m.labeller config).labels) } := by
  have hdirty := m.isDirty_label_iff config
  unfold injected
  by_cases h : (m.run config).log.labelCount = 0
  · have hclean : ¬ (m.label config m.imports.resolves).log.isDirty := fun hd => hdirty.mp hd h
    rw [if_pos h, run, addWrapperImport, if_neg hclean, label_eq]
    rfl
  · rw [if_neg h, run, addWrapperImport, if_pos (hdirty.mpr h), label_eq]
    rfl

/-- What a run reports: the owned calls of the module in their order, and the import of the helper
if a call was labelled. -/
lemma events_run :
    (m.run config).log.events =
      (Tree.ownedCallsOfList m.body).filterMap (m.labeller config).event? ++
        if (m.run config).log.labelCount = 0 then []
        else [.imported (m.run config).log.labelCount config.wrapperSource] := by
  have hdirty := m.isDirty_label_iff config
  by_cases h : (m.run config).log.labelCount = 0
  · have hclean : ¬ (m.label config m.imports.resolves).log.isDirty := fun hd => hdirty.mp hd h
    rw [if_pos h, run, Log.events_append, addWrapperImport, if_neg hclean, label_eq]
    rfl
  · rw [if_neg h, labelCount_run_eq_label, run, Log.events_append, addWrapperImport,
      if_pos (hdirty.mpr h), label_eq]
    rfl

/-- A run that labels no call changes nothing. -/
lemma run_value_of_labelCount_eq_zero (h : (m.run config).log.labelCount = 0) :
    (m.run config).value = m := by
  have hclean : ¬ (m.label config m.imports.resolves).log.isDirty :=
    fun hdirty => (m.isDirty_label_iff config).mp hdirty h
  rw [labelCount_run_eq_label] at h
  rw [run, addWrapperImport, if_neg hclean, m.value_label_of_labelCount_eq_zero config h]

/-- A run that labels a call wraps it, and puts the import of the helper in front. -/
lemma run_value_of_labelCount_ne_zero (h : (m.run config).log.labelCount ≠ 0) :
    (m.run config).value =
      { m with
        body := .wrapperImport config.wrapperName config.wrapperSource ::
          m.body.map (Tree.wrapOwned config.wrapperName (m.labeller config).labels) } := by
  rw [run_value, injected, if_neg h, List.singleton_append]

/-- A run leaves a module as it is exactly if it labels no call. -/
theorem run_value_eq_self_iff : (m.run config).value = m ↔ (m.run config).log.labelCount = 0 := by
  refine ⟨fun heq => Decidable.byContradiction fun h => ?_,
    m.run_value_of_labelCount_eq_zero config⟩
  rw [run_value_of_labelCount_ne_zero m config h] at heq
  have hlength := congrArg (fun m => m.body.length) heq
  simp at hlength

/-! ### What a run leaves behind -/

/-- The owned calls of a module are in their places after a run; the import owns none. -/
lemma ownedCallsOfList_run :
    Tree.ownedCallsOfList (m.run config).value.body =
      (Tree.ownedCallsOfList m.body).map
        (OwnedCall.wrapped config.wrapperName (m.labeller config).labels) := by
  have hfront : ((m.injected config).map Tree.ownedCalls).flatten = [] := by
    unfold injected
    split <;> rfl
  rw [run_value, Tree.ownedCallsOfList_eq, List.map_append, List.flatten_append, hfront,
    List.nil_append, ← Tree.ownedCallsOfList_eq, Tree.ownedCallsOfList_map_wrapOwned]

/-- After a run every identifier comes from where it came from before, and the helper, if the module
does not import it and a call was labelled, from the module of the helper. -/
lemma source?_run (x : Ident) :
    (m.run config).value.imports.source? x =
      (m.imports.source? x).or
        (if (m.run config).log.labelCount ≠ 0 ∧ x = ⟨config.wrapperName, 0⟩ then
          some config.wrapperSource else none) := by
  have himport := source?_addWrapperImport (m.label config m.imports.resolves).value config
    (m.label config m.imports.resolves).log x
  simp only [imports_label, isDirty_label_iff] at himport
  exact himport

/-- Every identifier but the helper resolves as before. -/
lemma resolves_run_of_ne {x : Ident} (hx : x ≠ ⟨config.wrapperName, 0⟩) (origins : List String) :
    (m.run config).value.imports.resolves x origins = m.imports.resolves x origins := by
  have hsource := source?_run m config x
  rw [if_neg fun h => hx h.2, Option.or_none] at hsource
  rw [ImportBindings.resolves, ImportBindings.resolves, hsource]

/-! ### A module with one hook call -/

/-- The module `import { hook } from source; name = hook();`. -/
def ofHookCall (hook : Hook) (source name : String) : Module where
  body := [.wrapperImport hook.name source,
    .node .assignmentExpression [("left", .reference name), ("right", .node .callExpression
      [("callee", .reference hook.name), ("arguments", .list [])])]]
  attributes := []

section HookCall

variable (hook : Hook) (source name : String)

/-- The module owns the call of its hook, under the name that is assigned. -/
lemma ownedCallsOfList_ofHookCall :
    Tree.ownedCallsOfList (ofHookCall hook source name).body =
      [⟨⟨hook.name, 0⟩, .simple name⟩] := by
  have hcall : ∀ fs : Fields, (Tree.node .callExpression fs).unparenthesized =
      .node .callExpression fs := fun fs => Tree.unparenthesized_of_ne_paren nofun
  have hleft : (Tree.reference name).pattern = .name ⟨name, 0⟩ := by
    rw [Tree.reference, Tree.pattern]
    rfl
  have hslot : Tree.ownedCallsOfList (ofHookCall hook source name).body =
      ((Tree.node .callExpression
        [("callee", .reference hook.name), ("arguments", .list [])]).ownedCall?
          (.ofAssignTarget (Tree.reference name).pattern)).toList ++ [] ++ [] := rfl
  rw [hslot, hleft, Tree.ownedCall?, hcall]
  rfl

/-- The module imports its hook and nothing else. -/
lemma source?_ofHookCall (x : Ident) :
    (ofHookCall hook source name).imports.source? x =
      if ⟨hook.name, 0⟩ = x then some source else none := by
  have hbindings : Tree.bindingsOfList (ofHookCall hook source name).body =
      [(⟨hook.name, 0⟩, source)] := rfl
  rw [source?_imports, hbindings, ImportBindings.lastSource?_cons]
  exact Option.none_or

variable {source}

/-- A run that tracks the module of the hook labels the one call. -/
lemma labelCount_run_ofHookCall {config : Config} (h : source ∈ config.origins) :
    ((ofHookCall hook source name).run config).log.labelCount = 1 := by
  have hresolves : (ofHookCall hook source name).imports.resolves ⟨hook.name, 0⟩ config.origins :=
    ImportBindings.resolves_eq_true_iff.mpr ⟨source, h, by rw [source?_ofHookCall, if_pos rfl]⟩
  have hlabel : ((ofHookCall hook source name).labeller config).label?
      ⟨⟨hook.name, 0⟩, .simple name⟩ = some name := by
    rw [Labeller.label?, if_pos]
    · rfl
    · rw [Hook.ofName?_name]
      exact hresolves
  rw [labelCount_run, ownedCallsOfList_ofHookCall, List.countP_singleton, hlabel]
  rfl

end HookCall

/-! ### The second run -/

/-- Whether calls of the helper are tracked in what a run has made of a module: its name is that of
a hook, and it is imported from one of the origins. -/
def tracksHelper : Bool :=
  (Hook.ofName? config.wrapperName).isSome &&
    (m.run config).value.imports.resolves ⟨config.wrapperName, 0⟩ config.origins

variable {m config}

/-- The second run gives a call of the helper its label exactly if it tracks such calls. -/
lemma label?_of_callee_eq_helper {c : OwnedCall} (hc : c.callee = ⟨config.wrapperName, 0⟩) :
    ((m.run config).value.labeller config).label? c =
      if m.tracksHelper config then c.context.label? else none := by
  rw [Labeller.label?, hc]
  rfl

/-- The second run gives the same label to a call that is none of the helper. -/
lemma label?_of_callee_ne_helper {c : OwnedCall} (hc : c.callee ≠ ⟨config.wrapperName, 0⟩) :
    ((m.run config).value.labeller config).label? c = (m.labeller config).label? c := by
  have hresolves := resolves_run_of_ne m config hc config.origins
  simp [Labeller.label?, labeller, hresolves]

/-- If calls of the helper are not tracked, the second run labels none of the calls it finds. -/
lemma label?_wrapped_of_not_tracksHelper (h : m.tracksHelper config = false) (c : OwnedCall) :
    ((m.run config).value.labeller config).label?
      (c.wrapped config.wrapperName (m.labeller config).labels) = none := by
  have hhelper : ∀ d : OwnedCall, d.callee = ⟨config.wrapperName, 0⟩ →
      ((m.run config).value.labeller config).label? d = none := by
    intro d hd
    rw [label?_of_callee_eq_helper hd, h]
    rfl
  cases hlabel : (m.labeller config).label? c with
  | some label => exact hhelper _ (by rw [Labeller.wrapped_of_label? hlabel])
  | none =>
    rw [Labeller.wrapped_of_label?_eq_none hlabel]
    by_cases hc : c.callee = ⟨config.wrapperName, 0⟩
    · exact hhelper c hc
    · rw [label?_of_callee_ne_helper hc, hlabel]

/-- If they are tracked, the second run gives the label of the first run once more. -/
lemma label?_wrapped_of_tracksHelper (h : m.tracksHelper config) {c : OwnedCall} {label : String}
    (hlabel : (m.labeller config).label? c = some label) :
    ((m.run config).value.labeller config).label?
      (c.wrapped config.wrapperName (m.labeller config).labels) = some label := by
  rw [Labeller.wrapped_of_label? hlabel, label?_of_callee_eq_helper rfl, if_pos h]
  rw [Labeller.label?] at hlabel
  exact (Option.ite_none_right_eq_some.mp hlabel).2

/-- The second run labels at least the calls that the first one has labelled if it tracks calls of
the helper, and none otherwise. -/
lemma labelCount_run_run (m : Module) (config : Config) :
    if m.tracksHelper config then
      (m.run config).log.labelCount ≤ ((m.run config).value.run config).log.labelCount
    else ((m.run config).value.run config).log.labelCount = 0 := by
  -- both runs count over the owned calls of `m`, the second one as the first has wrapped them
  rw [labelCount_run (m.run config).value, ownedCallsOfList_run, List.countP_map, labelCount_run m]
  split
  · rename_i h
    refine List.countP_mono_left fun c _ hc => ?_
    obtain ⟨label, hlabel⟩ := Option.isSome_iff_exists.mp hc
    rw [Function.comp_apply, label?_wrapped_of_tracksHelper h hlabel]
    rfl
  · rename_i h
    refine List.countP_eq_zero.mpr fun c _ => ?_
    rw [Function.comp_apply, label?_wrapped_of_not_tracksHelper (Bool.not_eq_true _ ▸ h)]
    exact Bool.false_ne_true

/-- The second run changes nothing exactly if the first one has labelled nothing or calls of the
helper are not tracked. -/
lemma run_run_eq_self_iff_tracksHelper :
    ((m.run config).value.run config).value = (m.run config).value ↔
      (m.run config).log.labelCount = 0 ∨ m.tracksHelper config = false := by
  rw [run_value_eq_self_iff]
  have hcount := labelCount_run_run m config
  cases htracks : m.tracksHelper config with
  | false =>
    rw [htracks] at hcount
    exact ⟨fun _ => .inr rfl, fun _ => hcount⟩
  | true =>
    rw [htracks, if_pos rfl] at hcount
    refine ⟨fun h => .inl (Nat.le_zero.mp (h ▸ hcount)), fun h => ?_⟩
    have hzero : (m.run config).log.labelCount = 0 := h.resolve_right (by decide)
    rw [m.run_value_of_labelCount_eq_zero config hzero, hzero]

example (m : Module) : ((m.run {}).value.run {}).value = (m.run {}).value :=
  run_run_eq_self_iff_tracksHelper.mpr (.inr rfl)

/-- Two runs that both label a call wrap every call with its labels of the first run and around them
those of the second, and put two imports in front. -/
lemma run_run_value (hfirst : (m.run config).log.labelCount ≠ 0)
    (hlater : ((m.run config).value.run config).log.labelCount ≠ 0) :
    ((m.run config).value.run config).value =
      { m with
        body := .wrapperImport config.wrapperName config.wrapperSource ::
          .wrapperImport config.wrapperName config.wrapperSource ::
            m.body.map (Tree.wrapOwned config.wrapperName (labelsThen config.wrapperName
              (m.labeller config).labels ((m.run config).value.labeller config).labels)) } := by
  rw [run_value_of_labelCount_ne_zero _ config hlater]
  have honce := run_value_of_labelCount_ne_zero m config hfirst
  generalize (m.run config).value = once at honce ⊢
  generalize (once.labeller config).labels = later
  rw [honce]
  simp only [List.map_cons, Tree.wrapOwned_wrapperImport, Tree.map_wrapOwned_wrapOwned]

variable (m config)

/-- Running twice is running once exactly if the first run labels no call, or the helper is not
called like a tracked hook, or it does not resolve to one of the origins in what the first run has
made.  Otherwise the second run gives every call that the first one has labelled its label once
more, and puts a second import in front. -/
theorem run_run_eq_self_iff :
    let helper : Ident := ⟨config.wrapperName, 0⟩
    let once := (m.run config).value
    let twice := (once.run config).value
    let rule := labelsThen config.wrapperName (m.labeller config).labels
      (once.labeller config).labels
    (twice = once ↔ (m.run config).log.labelCount = 0 ∨ Hook.ofName? config.wrapperName = none ∨
      once.imports.resolves helper config.origins = false) ∧
    (twice ≠ once →
      twice = { m with
        body := .wrapperImport config.wrapperName config.wrapperSource ::
          .wrapperImport config.wrapperName config.wrapperSource ::
            m.body.map (Tree.wrapOwned config.wrapperName rule) } ∧
      (∀ c label, (m.labeller config).label? c = some label → rule c = [label, label]) ∧
      (m.run config).log.labelCount ≤ (once.run config).log.labelCount) := by
  intro helper once twice rule
  have htracks : m.tracksHelper config = false ↔ Hook.ofName? config.wrapperName = none ∨
      once.imports.resolves helper config.origins = false := by
    rw [tracksHelper, Bool.and_eq_false_iff, Option.isSome_eq_false_iff, Option.isNone_iff_eq_none]
  have hself : twice = once ↔ (m.run config).log.labelCount = 0 ∨ m.tracksHelper config = false :=
    run_run_eq_self_iff_tracksHelper
  refine ⟨hself.trans (or_congr_right htracks), fun hne => ?_⟩
  have hlater : (once.run config).log.labelCount ≠ 0 :=
    fun h => hne ((run_value_eq_self_iff once config).mpr h)
  obtain ⟨hfirst, hhelper⟩ := not_or.mp fun h => hne (hself.mpr h)
  have hhelper : m.tracksHelper config = true := Bool.not_eq_false _ ▸ hhelper
  refine ⟨run_run_value hfirst hlater, fun c label hlabel => ?_, ?_⟩
  · have honce : (m.labeller config).labels c = [label] := by
      rw [Labeller.labels, hlabel]
      rfl
    have hagain : (once.labeller config).labels
        (c.wrapped config.wrapperName (m.labeller config).labels) = [label] := by
      rw [Labeller.labels, label?_wrapped_of_tracksHelper hhelper hlabel]
      rfl
    show _ ++ _ = _
    rw [honce, hagain]
    rfl
  · have hcount := labelCount_run_run m config
    rwa [hhelper, if_pos rfl] at hcount

/-- A helper that is called and imported like a hook: `import { useState } from "react"; a =
useState();` is labelled again and again. -/
theorem run_run_ne_self_of_tracked_helper :
    let config : Config := { wrapperName := "useState", wrapperSource := "react" }
    let m : Module := ⟨[.wrapperImport "useState" "react",
      .node .assignmentExpression [("left", .reference "a"), ("right", .node .callExpression
        [("callee", .reference "useState"), ("arguments", .list [])])]], []⟩
    ((m.run config).value.run config).value ≠ (m.run config).value ∧
      (m.run config).log.labelCount ≤ ((m.run config).value.run config).log.labelCount := by
  intro config m
  have horigin : "react" ∈ config.origins := by decide
  have hresolves : m.imports.resolves ⟨"useState", 0⟩ config.origins = true :=
    ImportBindings.resolves_eq_true_iff.mpr
      ⟨"react", horigin, source?_ofHookCall .useState "react" "a" _⟩
  have hfirst : (m.run config).log.labelCount ≠ 0 := by
    have hcount := labelCount_run_ofHookCall .useState "a" horigin
    exact fun h => absurd (hcount.symm.trans h) Nat.one_ne_zero
  have hagain : (m.run config).value.imports.resolves ⟨"useState", 0⟩ config.origins = true := by
    rw [ImportBindings.resolves_eq_true_iff] at hresolves ⊢
    obtain ⟨source, hmem, hsource⟩ := hresolves
    exact ⟨source, hmem, by rw [source?_run, hsource, Option.some_or]⟩
  have hne : ((m.run config).value.run config).value ≠ (m.run config).value := by
    rw [Ne, (run_run_eq_self_iff m config).1]
    rintro (h | h | h)
    · exact hfirst h
    · exact absurd h (by decide)
    · exact absurd (hagain.symm.trans h) (by decide)
  exact ⟨hne, ((run_run_eq_self_iff m config).2 hne).2.2⟩

end Module

end HookLabel
