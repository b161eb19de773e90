import HookLabel.Proofs.Accounts

/-!
# Resolution is preserved

Labelling changes no import, and the import of the helper is put in front of all others, where it
loses against every binding of the same identifier.  So after a run every identifier that the module
binds comes from where it came from, and the helper, if the module does not bind it, comes from the
module of the helper (`source?_run_eq`): the calls that the run has inserted find the helper, and
no other identifier is resolved differently.
-/

namespace HookLabel

namespace Tree

/-! ### Helper calls call the helper -/

section Names

variable (names : String → Bool)

/-- A call of a helper calls its name in the outermost context. -/
lemma callee?_of_helper? {t : Tree} {name : String} (h : t.helper? = some name) :
    t.callee? = some ⟨name, 0⟩ := by
  unfold helper? at h
  split at h
  · split at h
    · rename_i hcallee _
      have hname := (Option.ite_none_right_eq_some.mp h).2
      rw [callee?, hcallee, Option.some.inj hname]
    · cases h
  · cases h

/-- What is listed under a condition that tells helper calls is one. -/
lemma isHelperCall_of_mem_ite {c : Bool} {t call : Tree} (hc : c → isHelperCall names t)
    (h : call ∈ if c then [t] else []) : isHelperCall names call := by
  cases c with
  | true => rw [List.mem_singleton.mp h]; exact hc rfl
  | false => cases h

/-- What is listed below a tree has the shape of a helper call. -/
lemma isHelperCall_of_mem_helperCallsBelow {t call : Tree}
    (h : call ∈ helperCallsBelow names t) : isHelperCall names call := by
  induction t using partsInduction with
  | null | bool b | num m d | str s => cases h
  | list ts ih =>
    rw [helperCallsBelow, helperCallsOfList_eq_flatten] at h
    obtain ⟨calls, hcalls, hmem⟩ := List.mem_flatten.mp h
    obtain ⟨t, ht, rfl⟩ := List.mem_map.mp hcalls
    rcases List.mem_append.mp hmem with hself | hbelow
    · exact isHelperCall_of_mem_ite names id hself
    · exact ih t ht hbelow
  | node kind fs ih =>
    rw [helperCallsBelow, helperCallsOfFields_eq_flatten] at h
    obtain ⟨calls, hcalls, hmem⟩ := List.mem_flatten.mp h
    obtain ⟨p, hp, rfl⟩ := List.mem_map.mp hcalls
    rcases List.mem_append.mp hmem with hself | hbelow
    · exact isHelperCall_of_mem_ite names (fun h => (Bool.and_eq_true _ _ ▸ h).1) hself
    · exact ih p hp hbelow

end Names

end Tree

namespace Module

variable (m : Module) (config : Config)

/-- The identifiers that the value imports of a module bind. -/
def boundIdents : List Ident := (Tree.bindingsOfList m.body).map Prod.fst

/-- An identifier has a module exactly if an import binds it. -/
lemma isSome_source?_iff (x : Ident) : (m.imports.source? x).isSome ↔ x ∈ m.boundIdents := by
  rw [source?_imports, ImportBindings.isSome_lastSource?_iff, boundIdents]

/-- What a module calls a helper calls it by its bare name in the outermost context. -/
lemma callee?_of_mem_helperCalls {name : String} {call : Tree}
    (h : call ∈ m.helperCalls fun n => n == name) : call.callee? = some ⟨name, 0⟩ := by
  have hshape : call.isHelperCall fun n => n == name :=
    Tree.isHelperCall_of_mem_helperCallsBelow _ (t := .list m.body) h
  rw [Tree.isHelperCall, Option.any_eq_true] at hshape
  obtain ⟨n, hn, heq⟩ := hshape
  rw [Tree.callee?_of_helper? hn, eq_of_beq heq]

/-- After a run an identifier that the module binds comes from where it came from; of the others
only the helper comes from anywhere, and only if a call was labelled. -/
lemma source?_run_eq (x : Ident) :
    (m.run config).value.imports.source? x =
      if x ∈ m.boundIdents then m.imports.source? x
      else if (m.run config).log.labelCount ≠ 0 ∧ x = ⟨config.wrapperName, 0⟩ then
        some config.wrapperSource
      else none := by
  rw [source?_run]
  by_cases hx : x ∈ m.boundIdents
  · obtain ⟨source, hsource⟩ := Option.isSome_iff_exists.mp ((m.isSome_source?_iff x).mpr hx)
    rw [if_pos hx, hsource, Option.some_or]
  · have hnone : m.imports.source? x = none := by
      rw [← Option.not_isSome_iff_eq_none, isSome_source?_iff]
      exact hx
    rw [if_neg hx, hnone, Option.none_or]

/-- Resolution is preserved.  Labelling by any resolver leaves every identifier where it comes
from.  After a run the identifiers that the module binds come from where they came from, and of the
others the helper comes from its module if a call was labelled.  So if the module does not bind the
helper itself, every helper call in the result of a run that labels calls finds the helper in its
module, and no other identifier comes from elsewhere. -/
theorem label_run_preserve_resolution :
    let helper : Ident := ⟨config.wrapperName, 0⟩
    let ran := m.run config
    (∀ (resolver : Resolver) (x : Ident),
      (m.label config resolver).value.imports.source? x = m.imports.source? x) ∧
    (∀ x : Ident, (x ∈ m.boundIdents ↔ (m.imports.source? x).isSome) ∧
      ran.value.imports.source? x =
        if x ∈ m.boundIdents then m.imports.source? x
        else if ran.log.labelCount ≠ 0 ∧ x = helper then some config.wrapperSource
        else none) ∧
    (helper ∉ m.boundIdents →
      (ran.log.labelCount ≠ 0 →
        ∀ call ∈ ran.value.helperCalls fun name => name == config.wrapperName,
          call.callee?.bind ran.value.imports.source? = some config.wrapperSource) ∧
      ∀ x ≠ helper, ran.value.imports.source? x = m.imports.source? x) := by
  intro helper ran
  have hlabel : ∀ (resolver : Resolver) (x : Ident),
      (m.label config resolver).value.imports.source? x = m.imports.source? x := by
    intro resolver x
    rw [imports_label]
  have hrun := m.source?_run_eq config
  refine ⟨hlabel, fun x => ⟨(m.isSome_source?_iff x).symm, hrun x⟩, fun hfree => ⟨?_, ?_⟩⟩
  · intro hlabelled call hcall
    have hsource : ran.value.imports.source? helper = some config.wrapperSource := by
      rw [hrun, if_neg hfree, if_pos ⟨hlabelled, rfl⟩]
    rw [callee?_of_mem_helperCalls _ hcall, Option.bind_some]
    exact hsource
  · intro x hx
    have hsource := source?_run m config x
    rwa [if_neg fun h => hx h.2, Option.or_none] at hsource

/-- In `import { useState } from "react"; a = useState();` the helper is not bound, and the call of
it finds the module that is imported in front. -/
theorem label_run_preserve_resolution_of_hook_call :
    let config : Config := {}
    let m := ofHookCall .useState "react" "a"
    let helper : Ident := ⟨"addHookName", 0⟩
    helper ∉ m.boundIdents ∧ (m.run config).log.labelCount ≠ 0 ∧
      (∀ call ∈ (m.run config).value.helperCalls fun name => name == "addHookName",
        call.callee?.bind (m.run config).value.imports.source? = some "source/devtools") ∧
      (m.run config).value.imports.source? ⟨"useState", 0⟩ = m.imports.source? ⟨"useState", 0⟩ := by
  intro config m helper
  have hfree : helper ∉ m.boundIdents := by decide
  have hlabelled : (m.run config).log.labelCount ≠ 0 := by
    have horigin : "react" ∈ config.origins := by decide
    have hcount := labelCount_run_ofHookCall .useState "a" horigin
    exact fun h => absurd (hcount.symm.trans h) Nat.one_ne_zero
  have hpreserved := (label_run_preserve_resolution m config).2.2 hfree
  exact ⟨hfree, hlabelled, hpreserved.1 hlabelled, hpreserved.2 _ (by decide)⟩

end Module

end HookLabel
