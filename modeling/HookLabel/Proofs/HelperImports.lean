import HookLabel.Proofs.ConfigTexts
import HookLabel.Proofs.Repetition

/-!
# Imports of the helper

`Module.helperImports` counts the items of a module that import the helper from its module.  A run
does not look for them: it puts an import of its own in front whenever it labels a call
(`exists_body_run`), which adds one to the count (`helperImports_run`).  So a module without any has
one after a run that labels a call; a module that imports the helper already and has a call left to
label gets a second one (`not_helperImports_run_le_one`).
-/

namespace HookLabel

namespace Tree

/-- Whether a specifier imports a value by name and binds it to `x`. -/
def importsNamed (x : Ident) : Tree → Bool
  | node .importSpecifier fs => (node .importSpecifier fs).boundBySpecifier? = some x
  | _ => false

/-- Whether an item imports a value from the module `source` by name and binds it to the helper. -/
def isHelperImport (wrapper source : String) : Tree → Bool
  | node .importDeclaration fs =>
    !(field "typeOnly" fs).isTrue && ((field "source" fs).get "value").text == source &&
      (field "specifiers" fs).items.any (importsNamed ⟨wrapper, 0⟩)
  | _ => false

/-- What a run puts in front of a module is such an item. -/
lemma isHelperImport_wrapperImport (wrapper source : String) :
    (wrapperImport wrapper source).isHelperImport wrapper source = true := by
  simp [wrapperImport, isHelperImport, importsNamed, boundBySpecifier?, field, isTrue, items, get,
    fields, stringLiteral, text]

section Rule

variable (wrapper : String) (rule : OwnedCall → List String)

/-- A specifier imports the value that it imported. -/
lemma importsNamed_wrapOwned (x : Ident) (t : Tree) :
    (t.wrapOwned wrapper rule).importsNamed x = t.importsNamed x := by
  have hbound := (keepsReadings_wrapOwned wrapper rule).boundBySpecifier? t
  rw [Option.map_id_apply] at hbound
  cases t with
  | node kind fs =>
    rw [wrapOwned_node] at hbound ⊢
    cases kind with
    | importSpecifier => rw [importsNamed, importsNamed, hbound]
    | _ => rfl
  | list ts => rw [wrapOwned_list]; rfl
  | _ => rfl

/-- Wrapping the calls of an item changes nothing about what it imports. -/
lemma isHelperImport_wrapOwned (helper source : String) (t : Tree) :
    (t.wrapOwned wrapper rule).isHelperImport helper source = t.isHelperImport helper source := by
  cases t with
  | node kind fs =>
    cases kind with
    | importDeclaration =>
      have hkeeps := keepsReadings_wrapOwned wrapper rule
      have hpart : ∀ name, name ≠ "ctxt" →
          field name (wrapSlots wrapper rule .importDeclaration fs
            (mapFields (wrapOwned wrapper rule) fs)) = (field name fs).wrapOwned wrapper rule :=
        fun name hctxt => hkeeps.part _ fs name hctxt (.inr rfl)
      have hspecifiers : (importsNamed ⟨helper, 0⟩) ∘ wrapOwned wrapper rule =
          importsNamed ⟨helper, 0⟩ :=
        funext (importsNamed_wrapOwned wrapper rule ⟨helper, 0⟩)
      rw [wrapOwned_node, isHelperImport, isHelperImport, hpart "typeOnly" (by decide),
        hpart "source" (by decide), hpart "specifiers" (by decide), hkeeps.root readsRoot_isTrue,
        hkeeps.text_get_value, hkeeps.items, List.any_map, hspecifiers]
    | _ => rw [wrapOwned_node]; rfl
  | list ts => rw [wrapOwned_list]; rfl
  | _ => rfl

end Rule

end Tree

namespace Module

/-- The number of items of a module that import the helper from its module. -/
def helperImports (m : Module) (config : Config) : Nat :=
  m.body.countP (Tree.isHelperImport config.wrapperName config.wrapperSource)

variable (m : Module) (config : Config)

/-- The items of a module stand behind what a run puts in front of them, and each imports the helper
or does not, as it did before. -/
lemma exists_body_run :
    ∃ items, (m.run config).value.body = m.injected config ++ items ∧
      items.map (Tree.isHelperImport config.wrapperName config.wrapperSource) =
        m.body.map (Tree.isHelperImport config.wrapperName config.wrapperSource) := by
  refine ⟨m.body.map (Tree.wrapOwned config.wrapperName (m.labeller config).labels), ?_, ?_⟩
  · rw [run_value]
  · rw [List.map_map]
    exact List.map_congr_left fun t _ => by
      rw [Function.comp_apply, Tree.isHelperImport_wrapOwned]

/-- What a run puts in front of a module is one import of the helper if it labels a call, and
nothing otherwise. -/
lemma countP_injected :
    (m.injected config).countP (Tree.isHelperImport config.wrapperName config.wrapperSource) =
      if (m.run config).log.labelCount = 0 then 0 else 1 := by
  unfold injected
  split
  · rfl
  · rw [List.countP_singleton, Tree.isHelperImport_wrapperImport]
    rfl

/-- A run adds an import of the helper to those that the module has, if it labels a call. -/
lemma helperImports_run :
    (m.run config).value.helperImports config =
      m.helperImports config + if (m.run config).log.labelCount = 0 then 0 else 1 := by
  obtain ⟨items, hbody, hitems⟩ := m.exists_body_run config
  have hcount : items.countP (Tree.isHelperImport config.wrapperName config.wrapperSource) =
      m.helperImports config := by
    have hid := congrArg (List.countP id) hitems
    rwa [List.countP_map, List.countP_map, Function.id_comp] at hid
  rw [helperImports, hbody, List.countP_append, hcount, countP_injected, Nat.add_comm]

/-- Imports of the helper after a run.  If a call was labelled, one more stands in front; behind it
every item imports the helper or does not, as it did before.  So of a module with at most one of
these imports, a run makes a module with at most one exactly if there was none before or no call was
labelled; and there is at least one if a call was labelled, and exactly one if the module had
none. -/
theorem helperImports_run_le_one_iff (m : Module) (config : Config) :
    let ran := m.run config
    let importsHelper := Tree.isHelperImport config.wrapperName config.wrapperSource
    let before := m.helperImports config
    let after := ran.value.helperImports config
    (∃ items,
      ran.value.body =
        (if ran.log.labelCount = 0 then []
          else [Tree.wrapperImport config.wrapperName config.wrapperSource]) ++ items ∧
      items.map importsHelper = m.body.map importsHelper) ∧
    after = before + (if ran.log.labelCount = 0 then 0 else 1) ∧
    (before ≤ 1 →
      (after ≤ 1 ↔ before = 0 ∨ ran.log.labelCount = 0) ∧
      (ran.log.labelCount ≠ 0 → 1 ≤ after ∧ (before = 0 → after = 1))) := by
  intro ran importsHelper before after
  have hafter : after = before + if ran.log.labelCount = 0 then 0 else 1 :=
    m.helperImports_run config
  refine ⟨m.exists_body_run config, hafter, fun hbefore => ⟨?_, fun hlabelled => ?_⟩⟩
  · by_cases h : ran.log.labelCount = 0
    · rw [if_pos h] at hafter
      exact ⟨fun _ => .inr h, fun _ => by omega⟩
    · rw [if_neg h] at hafter
      exact ⟨fun hle => .inl (by omega), fun hor => by have := hor.resolve_right h; omega⟩
  · rw [if_neg hlabelled] at hafter
    exact ⟨by omega, fun hnone => by omega⟩

/-- `import { useState } from "react"; a = useState();` does not import the helper before a run, and
imports it once after. -/
theorem helperImports_run_of_hook_call :
    let config : Config := {}
    let m := ofHookCall .useState "react" "a"
    m.helperImports config ≤ 1 ∧ (m.run config).log.labelCount ≠ 0 ∧
      (m.run config).value.helperImports config = 1 := by
  intro config m
  have hbefore : m.helperImports config = 0 := by decide
  have hle : m.helperImports config ≤ 1 := hbefore ▸ Nat.zero_le 1
  have hlabelled : (m.run config).log.labelCount ≠ 0 := by
    have horigin : "react" ∈ config.origins := by decide
    have hcount := labelCount_run_ofHookCall .useState "a" horigin
    exact fun h => absurd (hcount.symm.trans h) Nat.one_ne_zero
  have hafter := (helperImports_run_le_one_iff m config).2.2 hle
  exact ⟨hle, hlabelled, (hafter.2 hlabelled).2 hbefore⟩

/-- The target of the assignment `a = useState();`. -/
def assignedName : Tree :=
  .node .identifier [("ctxt", .num 0 0), ("value", .str "a"), ("optional", .bool false),
    ("typeAnnotation", .null)]

/-- The call `useState()`. -/
def hookCall : Tree :=
  .node .callExpression [("ctxt", .num 0 0), ("callee", .reference "useState"),
    ("arguments", .list []), ("typeArguments", .null)]

/-- The module `import { addHookName } from "source/devtools"; import { useState } from "react";
a = useState();`. -/
def importingHelper : Module where
  body := [.wrapperImport "addHookName" "source/devtools", .wrapperImport "useState" "react",
    .node (.other "ExpressionStatement") [("expression", .node .assignmentExpression
      [("operator", .str "="), ("left", assignedName), ("right", hookCall)])]]
  attributes := [("interpreter", .null)]

/-- A run labels the one hook call of this module. -/
lemma labelCount_run_importingHelper : (importingHelper.run {}).log.labelCount = 1 := by
  have hleft : assignedName.pattern = .name ⟨"a", 0⟩ := by
    rw [assignedName, Tree.pattern]
    rfl
  have hcall : hookCall.unparenthesized = hookCall := Tree.unparenthesized_of_ne_paren nofun
  have hcalls : Tree.ownedCallsOfList importingHelper.body =
      [⟨⟨"useState", 0⟩, .simple "a"⟩] := by
    have hslot : Tree.ownedCallsOfList importingHelper.body =
        (hookCall.ownedCall? (.ofAssignTarget assignedName.pattern)).toList ++ [] ++ [] ++ [] := rfl
    rw [hslot, hleft, Tree.ownedCall?, hcall]
    rfl
  have hsource : importingHelper.imports.source? ⟨"useState", 0⟩ = some "react" := by
    rw [source?_imports]
    rfl
  have hresolves : importingHelper.imports.resolves ⟨"useState", 0⟩ ({} : Config).origins :=
    ImportBindings.resolves_eq_true_iff.mpr ⟨"react", by decide, hsource⟩
  have hlabel : (importingHelper.labeller {}).label? ⟨⟨"useState", 0⟩, .simple "a"⟩ = some "a" := by
    rw [Labeller.label?, if_pos]
    · rfl
    · exact hresolves
  rw [labelCount_run, hcalls, List.countP_singleton, hlabel]
  rfl

/-- Having one import of the helper before does not bound them by one after: to the module above a
run with the default configuration adds a second import. -/
theorem not_helperImports_run_le_one :
    ¬ ∀ (text : String) (config : Config) (m : Module), Config.ofText text = .ok config →
      m.helperImports config ≤ 1 →
        (m.run config).value.helperImports config ≤ 1 ∧
          ((m.run config).log.labelCount ≠ 0 → (m.run config).value.helperImports config = 1) := by
  intro h
  have hconfig : Config.ofText "\x7b\x7d" = .ok {} := by
    have hread : Config.read "\x7b\x7d" = .ok {} := by
      refine Config.read_eq_ok_iff.mpr ?_
      exact .between Json.blanks_nil (.byKey (.bracketed (.close Json.blanks_nil)) List.nodup_nil)
        Json.blanks_nil
    rw [Config.ofText, hread]
    rfl
  have hbefore : importingHelper.helperImports {} = 1 := by decide
  have hafter : (importingHelper.run {}).value.helperImports {} = 2 := by
    rw [helperImports_run, hbefore, labelCount_run_importingHelper]
    rfl
  have hle := (h _ _ importingHelper hconfig (Nat.le_of_eq hbefore)).1
  rw [hafter] at hle
  exact absurd hle (by decide)

end Module

end HookLabel
