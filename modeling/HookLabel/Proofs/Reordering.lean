import HookLabel.Proofs.EventOrder
import HookLabel.Proofs.Repetition

/-!
# Reordering the items of a module

Labelling takes every item of a module by itself: all that one item owes to the others are the
imports.  So when the items of a module are reordered and every identifier is still imported from
where it was, the same calls are labelled, the same events are shown, and the items of the result
are those of the labelled module in the new order, behind the import of the helper
(`Module.run_reorder`).

An order of the items is the list of the positions they are taken from.  The imports stay what they
are whenever the items that bind something stay in their order (`bindingsOfList_reorder`).
-/

namespace HookLabel

/-! ### Reordering a list -/

/-- The entries of a list in another order, each taken from its position. -/
def reorder {α : Type} (order : List Nat) (l : List α) : List α :=
  order.filterMap fun i => l[i]?

section Reorder

variable {α : Type}

/-- The first place of an order comes first. -/
lemma reorder_cons (i : Nat) (order : List Nat) (l : List α) :
    reorder (i :: order) l = l[i]?.toList ++ reorder order l := by
  rw [reorder, List.filterMap_cons]
  cases l[i]? <;> rfl

/-- Entries may be changed before they are reordered or after. -/
lemma reorder_map {β : Type} (f : α → β) (order : List Nat) (l : List α) :
    reorder order (l.map f) = (reorder order l).map f := by
  simp only [reorder, List.getElem?_map, List.map_filterMap]

/-- The order in which the entries stand changes nothing. -/
lemma reorder_range (l : List α) : reorder (List.range l.length) l = l := by
  induction l with
  | nil => rfl
  | cons a l ih =>
    rw [List.length_cons, List.range_succ_eq_map, reorder_cons, reorder, List.filterMap_map]
    exact congrArg (List.cons a) ih

/-- Taking every position once keeps the entries. -/
lemma reorder_perm {order : List Nat} {l : List α} (h : order.Perm (List.range l.length)) :
    (reorder order l).Perm l := by
  have hperm : (reorder order l).Perm (reorder (List.range l.length) l) := h.filterMap _
  rwa [reorder_range] at hperm

end Reorder

namespace Tree

/-! ### What reordered trees own and bind -/

/-- Permuted trees have the owned calls permuted. -/
lemma ownedCallsOfList_perm {ts us : List Tree} (h : ts.Perm us) :
    (ownedCallsOfList ts).Perm (ownedCallsOfList us) := by
  rw [ownedCallsOfList_eq, ownedCallsOfList_eq]
  exact (h.map ownedCalls).flatten

/-- What the tree at a position binds; there is nothing beyond the last. -/
def bindingsAt (ts : List Tree) (i : Nat) : List (Ident × String) := bindingsOfList ts[i]?.toList

/-- What reordered trees bind is told by those among them that bind something. -/
lemma bindingsOfList_reorder_eq (order : List Nat) (ts : List Tree) :
    bindingsOfList (reorder order ts) =
      ((order.filter fun i => bindingsAt ts i ≠ []).map (bindingsAt ts)).flatten := by
  have hall : bindingsOfList (reorder order ts) = (order.map (bindingsAt ts)).flatten := by
    induction order with
    | nil => rfl
    | cons i order ih =>
      rw [reorder_cons, List.map_cons, List.flatten_cons, ← ih, bindingsAt, bindingsOfList_eq,
        bindingsOfList_eq, bindingsOfList_eq, List.map_append, List.flatten_append]
  rw [hall, ← List.flatten_filter_ne_nil, List.filter_map]
  rfl

/-- An order in which the trees that bind something stand as before relative to each other. -/
def KeepsBinders (order : List Nat) (ts : List Tree) : Prop :=
  order.Pairwise fun i j => bindingsAt ts i ≠ [] → bindingsAt ts j ≠ [] → i < j

instance (order : List Nat) (ts : List Tree) : Decidable (KeepsBinders order ts) :=
  inferInstanceAs (Decidable (order.Pairwise _))

/-- If the trees that bind something stay in their order, the same is bound in the same order. -/
theorem bindingsOfList_reorder {order : List Nat} {ts : List Tree}
    (horder : order.Perm (List.range ts.length))
    (hkeep : KeepsBinders order ts) : bindingsOfList (reorder order ts) = bindingsOfList ts := by
  -- either list holds the positions of what binds something, each once and from left to right
  have hbinding : (order.filter fun i => bindingsAt ts i ≠ []) =
      (List.range ts.length).filter fun i => bindingsAt ts i ≠ [] := by
    refine List.Perm.eq_of_pairwise (fun i j _ _ hij hji => absurd hij (Nat.lt_asymm hji)) ?_
      (List.pairwise_lt_range.filter _) (horder.filter _)
    rw [List.pairwise_filter]
    exact hkeep.imp fun h hi hj => h (of_decide_eq_true hi) (of_decide_eq_true hj)
  rw [bindingsOfList_reorder_eq, hbinding, ← bindingsOfList_reorder_eq, reorder_range]

end Tree

/-- Where every identifier comes from tells what resolves. -/
lemma ImportBindings.resolves_congr {b b' : ImportBindings}
    (h : ∀ x, b.source? x = b'.source? x) : b.resolves = b'.resolves := by
  funext x origins
  rw [resolves, resolves, h]

namespace Module

/-- A module with its items in another order. -/
def reorder (order : List Nat) (m : Module) : Module :=
  { m with body := HookLabel.reorder order m.body }

variable (m : Module) (config : Config)

/-- No two different events of a run share a key: there is one import at most. -/
lemma eq_of_mem_events_run {a b : Event} (ha : a ∈ (m.run config).log.events)
    (hb : b ∈ (m.run config).log.events) (hkey : a.sortKey = b.sortKey) : a = b := by
  have hcall : ∀ e ∈ (Tree.ownedCallsOfList m.body).filterMap (m.labeller config).event?,
      e.hook?.isSome := by
    intro e he
    obtain ⟨c, -, hc⟩ := List.mem_filterMap.mp he
    exact Labeller.isSome_hook?_of_event? _ hc
  rw [events_run, List.mem_append] at ha hb
  rcases ha with ha | ha
  · exact Event.eq_of_sortKey_eq (hcall a ha) hkey
  · rcases hb with hb | hb
    · exact (Event.eq_of_sortKey_eq (hcall b hb) hkey.symm).symm
    · split at ha
      · cases ha
      · rename_i hne
        rw [if_neg hne] at hb
        rw [List.mem_singleton.mp ha, List.mem_singleton.mp hb]

section Order

variable {order : List Nat} (horder : order.Perm (List.range m.body.length))

include horder

/-- The imports stay what they are if the items that bind something stay in their order. -/
lemma source?_reorder (hkeep : Tree.KeepsBinders order m.body) (x : Ident) :
    (m.reorder order).imports.source? x = m.imports.source? x := by
  rw [source?_imports, source?_imports, reorder, Tree.bindingsOfList_reorder horder hkeep]

/-- Where the imports stand relative to the calls does not matter.  When the items of a module are
reordered and every identifier is still imported from where it was, as it is whenever the items that
bind something stay in their order, a run labels as many calls and shows the same events, and behind
what it puts in front the items of its result stand in the new order. -/
theorem run_reorder :
    (Tree.KeepsBinders order m.body →
      ∀ x, (m.reorder order).imports.source? x = m.imports.source? x) ∧
    ((∀ x, (m.reorder order).imports.source? x = m.imports.source? x) →
      let ran := m.run config
      let ranReordered := (m.reorder order).run config
      ranReordered.log.labelCount = ran.log.labelCount ∧
      Event.sorted ranReordered.log.events = Event.sorted ran.log.events ∧
      ∃ front items,
        (front = if ran.log.labelCount = 0 then []
          else [.wrapperImport config.wrapperName config.wrapperSource]) ∧
        items.length = m.body.length ∧
        ran.value = { m with body := front ++ items } ∧
        ranReordered.value = { m with body := front ++ HookLabel.reorder order items }) := by
  refine ⟨fun hkeep => m.source?_reorder horder hkeep, fun himports => ?_⟩
  intro ran ranReordered
  -- the labeller is all that an item takes from the others
  have hlabeller : (m.reorder order).labeller config = m.labeller config := by
    rw [labeller, labeller, ImportBindings.resolves_congr himports]
  have hcalls : (Tree.ownedCallsOfList (m.reorder order).body).Perm
      (Tree.ownedCallsOfList m.body) :=
    Tree.ownedCallsOfList_perm (reorder_perm horder)
  have hcount : ranReordered.log.labelCount = ran.log.labelCount := by
    simp only [ranReordered, ran, labelCount_run, hlabeller]
    exact hcalls.countP_eq _
  have hevents : ranReordered.log.events.Perm ran.log.events := by
    simp only [ranReordered, ran] at hcount ⊢
    rw [events_run, events_run, hlabeller, hcount]
    exact (hcalls.filterMap _).append_right _
  have hfront : (m.reorder order).injected config = m.injected config := by
    simp only [ranReordered, ran] at hcount
    rw [injected, injected, hcount]
  refine ⟨hcount, Event.sorted_eq_of_perm hevents ?_, m.injected config, _, rfl,
    List.length_map _, m.run_value config, ?_⟩
  · exact fun a ha b hb => (m.reorder order).eq_of_mem_events_run config ha hb
  · show ((m.reorder order).run config).value = _
    rw [run_value, hfront, hlabeller, reorder_map]
    rfl

end Order

/-- `a = useState(); import { useState } from "react";`: the call comes first and is labelled all the
same. -/
theorem run_reorder_of_hook_call :
    let config : Config := {}
    let m := ofHookCall .useState "react" "a"
    let order := [1, 0]
    order.Perm (List.range m.body.length) ∧
    (∀ x, (m.reorder order).imports.source? x = m.imports.source? x) ∧
    ((m.reorder order).run config).log.labelCount = 1 ∧
    Event.sorted ((m.reorder order).run config).log.events =
      Event.sorted (m.run config).log.events := by
  intro config m order
  have horder : order.Perm (List.range m.body.length) := by decide
  have hkeep : Tree.KeepsBinders order m.body := by decide
  have horigin : "react" ∈ config.origins := by decide
  have hreordered := run_reorder m config horder
  have himports := hreordered.1 hkeep
  obtain ⟨hcount, hsorted, -⟩ := hreordered.2 himports
  exact ⟨horder, himports, hcount.trans (labelCount_run_ofHookCall .useState "a" horigin), hsorted⟩

end Module

end HookLabel
