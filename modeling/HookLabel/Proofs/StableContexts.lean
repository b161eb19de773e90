import HookLabel.Proofs.Labelling
import Mathlib.Data.List.Nodup
import Mathlib.Logic.Relation

/-!
# Binding contexts while a tree is labelled

A pattern, the target of an assignment, the head of a loop and a declarator among its siblings have
the same binding context before labelling has walked them and afterwards.

The declarators of a declaration are labelled in place: a loop wraps the initialisers, each by the
context that it reads off the declarators as they have become, and then the declarators are walked.
`LabelStep` is a single change on that way, and no such change alters how a declarator reads, so
that contexts are the same at every stage.  `labelInits` is the loop itself: from left to right it
comes to what `labelDeclarators` does (`labelInits_range`), and in any other order it leaves the
same declarators (`labelInits_value_of_perm`).
-/

namespace HookLabel

/-- Replacing an item of a list by one of which `f` says the same changes nothing that `f` says. -/
lemma map_set_of_getElem? {α β : Type} {f : α → β} {xs : List α} {index : Nat} {x y : α}
    (hx : xs[index]? = some x) (h : f y = f x) : (xs.set index y).map f = xs.map f := by
  obtain ⟨hindex, rfl⟩ := List.getElem?_eq_some_iff.mp hx
  rw [List.map_set, h, ← List.map_set, List.set_getElem_self]

namespace Labeller

open HookLabel.Tree

/-! ### The loop over the initialisers -/

/-- One round of the loop: the initialiser of the declarator at an index is labelled in place, in
the context that is read off the declarators as they are. -/
def labelInitAt (l : Labeller) (ds : List Tree) (index : Nat) : Labelled (List Tree) :=
  match ds[index]? with
  | none => ⟨ds, ∅⟩
  | some d =>
    let labelled := l.labelDeclarator (.ofDeclarators (ds.map declarator) index) d
    ⟨ds.set index labelled.value, labelled.log⟩

/-- The rounds of the loop at the given indices, one after the other. -/
def labelInits (l : Labeller) (ds : List Tree) : List Nat → Labelled (List Tree)
  | [] => ⟨ds, ∅⟩
  | index :: indices =>
    let first := l.labelInitAt ds index
    let later := l.labelInits first.value indices
    ⟨later.value, first.log ++ later.log⟩

variable (l : Labeller)

/-- In the round for the first declarator the later ones are its siblings. -/
lemma labelInitAt_zero (d : Tree) (ds : List Tree) :
    l.labelInitAt (d :: ds) 0 =
      let labelled := l.labelDeclarator (.ofDeclarator d.declarator (ds.map declarator)) d
      ⟨labelled.value :: ds, labelled.log⟩ := by
  simp only [labelInitAt, List.getElem?_cons_zero, List.map_cons, List.set_cons_zero,
    BindingContext.ofDeclarators_zero]

/-- The first declarator is not looked at in the rounds for later ones. -/
lemma labelInitAt_succ (d : Tree) (ds : List Tree) (index : Nat) :
    l.labelInitAt (d :: ds) (index + 1) =
      ⟨d :: (l.labelInitAt ds index).value, (l.labelInitAt ds index).log⟩ := by
  unfold labelInitAt
  rw [List.getElem?_cons_succ]
  cases ds[index]? with
  | none => rfl
  | some e => simp only [List.map_cons, List.set_cons_succ, BindingContext.ofDeclarators_succ]

/-- Labelling later declarators leaves the first one as it is. -/
lemma labelInits_map_succ (d : Tree) (ds : List Tree) (indices : List Nat) :
    l.labelInits (d :: ds) (indices.map Nat.succ) =
      ⟨d :: (l.labelInits ds indices).value, (l.labelInits ds indices).log⟩ := by
  induction indices generalizing ds with
  | nil => rfl
  | cons index indices ih =>
    rw [List.map_cons, labelInits, Nat.succ_eq_add_one, labelInitAt_succ, ih]
    rfl

/-- From left to right, the loop comes to what the recursion along the declarators does. -/
theorem labelInits_range (ds : List Tree) :
    l.labelInits ds (List.range ds.length) = l.labelDeclarators ds := by
  induction ds with
  | nil => rfl
  | cons d ds ih =>
    rw [List.length_cons, List.range_succ_eq_map, labelInits, labelInitAt_zero,
      labelInits_map_succ, ih, labelDeclarators]

/-! ### Stages of a declaration -/

/-- One change on the way of labelling the declarators of a declaration in place, whatever has
become of the other ones. -/
inductive LabelStep : List Tree → List Tree → Prop
  /-- An initialiser that is a tracked hook call is wrapped, with any label. -/
  | wrap {ds : List Tree} {d : Tree} (index : Nat) (label : String) (hd : ds[index]? = some d)
      (hhook : (l.hook? (d.get "init")).isSome) :
      LabelStep ds (ds.set index (d.modifyInit (Tree.wrap l.config.wrapperName label)))
  /-- A declarator is walked. -/
  | walk {ds : List Tree} {d : Tree} (index : Nat) (hd : ds[index]? = some d) :
      LabelStep ds (ds.set index (l.labelTree d).value)

/-- A tracked hook call is a call by a bare name. -/
lemma isSome_callee?_of_hook? {t : Tree} (h : (l.hook? t).isSome) :
    t.unparenthesized.callee?.isSome := by
  unfold hook? at h
  cases hcallee : t.unparenthesized.callee? with
  | none => simp [hcallee] at h
  | some x => rfl

/-- A declarator reads as before when its initialiser, a tracked hook call, is wrapped. -/
lemma declarator_wrapInit {d : Tree} (h : (l.hook? (d.get "init")).isSome) (label : String) :
    (d.modifyInit (Tree.wrap l.config.wrapperName label)).declarator = d.declarator := by
  have hwrap := wrapCall_eq_wrap l.config.wrapperName label (l.isSome_callee?_of_hook? h)
  cases d with
  | node kind fs =>
    have hinit : modifyField "init" (wrapCalls l.config.wrapperName [label]) fs =
        modifyField "init" (Tree.wrap l.config.wrapperName label) fs :=
      congrArg (fun t => setField "init" t fs) hwrap
    have hkeep := declarator_modifyInit l.config.wrapperName [label] (node kind fs)
    rwa [modifyInit, hinit] at hkeep
  | _ => rfl

/-- A declarator reads as before when it has been walked. -/
lemma declarator_labelTree (d : Tree) : (l.labelTree d).value.declarator = d.declarator := by
  rw [labelTree_eq, declarator_wrapOwned]

/-- No step changes how the declarators read. -/
theorem map_declarator_of_labelStep {ds es : List Tree} (h : l.LabelStep ds es) :
    es.map declarator = ds.map declarator := by
  cases h with
  | wrap index label hd hhook => exact map_set_of_getElem? hd (l.declarator_wrapInit hhook label)
  | walk index hd => exact map_set_of_getElem? hd (l.declarator_labelTree _)

/-- At every stage the declarators read as at first. -/
theorem map_declarator_of_labelSteps {ds es : List Tree}
    (h : Relation.ReflTransGen l.LabelStep ds es) : es.map declarator = ds.map declarator := by
  induction h with
  | refl => rfl
  | tail _ hstep ih => exact (l.map_declarator_of_labelStep hstep).trans ih

/-! ### The loop passes through stages -/

/-- Labelling the initialiser of a declarator leaves it as it is or wraps a tracked hook call. -/
lemma labelDeclarator_cases (context : BindingContext) (d : Tree) :
    (l.labelDeclarator context d).value = d ∨
    (l.hook? (d.get "init")).isSome ∧ ∃ label, (l.labelDeclarator context d).value =
      d.modifyInit (Tree.wrap l.config.wrapperName label) := by
  cases d with
  | node kind fs =>
    have hget : (node kind fs).get "init" = field "init" fs := rfl
    have hkeep : node kind (setField "init" (field "init" fs) fs) = node kind fs := by
      rw [setField_field]
    simp only [labelDeclarator, labelField, labelValue]
    cases hhook : l.hook? (field "init" fs) with
    | none => exact .inl hkeep
    | some hook =>
      cases context.label? with
      | none => exact .inl hkeep
      | some label => exact .inr ⟨by rw [hget, hhook]; rfl, label, rfl⟩
  | _ => exact .inl rfl

/-- A round of the loop is a step, or it changes nothing. -/
lemma labelSteps_labelInitAt (ds : List Tree) (index : Nat) :
    Relation.ReflTransGen l.LabelStep ds (l.labelInitAt ds index).value := by
  unfold labelInitAt
  cases hd : ds[index]? with
  | none => exact .refl
  | some d =>
    rcases l.labelDeclarator_cases (.ofDeclarators (ds.map declarator) index) d with
      h | ⟨hhook, label, h⟩
    · obtain ⟨hindex, rfl⟩ := List.getElem?_eq_some_iff.mp hd
      simp only [h, List.set_getElem_self]
      exact .refl
    · simp only [h]
      exact .single (.wrap index label hd hhook)

/-- Whichever rounds the loop has gone through, it is at a stage. -/
theorem labelSteps_labelInits (ds : List Tree) (indices : List Nat) :
    Relation.ReflTransGen l.LabelStep ds (l.labelInits ds indices).value := by
  induction indices generalizing ds with
  | nil => exact .refl
  | cons index indices ih => exact (l.labelSteps_labelInitAt ds index).trans (ih _)

/-! ### The order of the rounds -/

/-- What a round makes of the declarator at each index. -/
lemma getElem?_labelInitAt (ds : List Tree) (index j : Nat) :
    (l.labelInitAt ds index).value[j]? = if index = j then
      ds[j]?.map fun d => (l.labelDeclarator (.ofDeclarators (ds.map declarator) j) d).value
    else ds[j]? := by
  unfold labelInitAt
  split
  · rename_i hd
    split
    · rename_i h
      rw [← h, hd, Option.map_none]
    · rfl
  · rename_i d hd
    rw [List.getElem?_set]
    split
    · rename_i h
      subst h
      rw [hd, if_pos (List.getElem?_eq_some_iff.mp hd).1, Option.map_some]
    · rfl

/-- What rounds at different indices make of the declarator at each index: each of them reads the
context that the declarators had at first. -/
lemma getElem?_labelInits {indices : List Nat} (h : indices.Nodup) (ds : List Tree) (j : Nat) :
    (l.labelInits ds indices).value[j]? = if j ∈ indices then
      ds[j]?.map fun d => (l.labelDeclarator (.ofDeclarators (ds.map declarator) j) d).value
    else ds[j]? := by
  induction indices generalizing ds with
  | nil => rfl
  | cons index indices ih =>
    obtain ⟨hindex, hindices⟩ := List.nodup_cons.mp h
    have hreads := l.map_declarator_of_labelSteps (l.labelSteps_labelInitAt ds index)
    -- the first round changed no context, and no later round comes back to its declarator
    rw [labelInits, ih hindices, hreads, getElem?_labelInitAt]
    by_cases hj : index = j
    · subst hj
      simp [hindex]
    · simp [hj, Ne.symm hj]

/-- The initialisers can be labelled in any order. -/
theorem labelInits_value_of_perm {ds : List Tree} {indices : List Nat}
    (h : indices.Perm (List.range ds.length)) :
    (l.labelInits ds indices).value = (l.labelDeclarators ds).value := by
  rw [← labelInits_range]
  refine List.ext_getElem? fun j => ?_
  rw [l.getElem?_labelInits (h.nodup_iff.mpr List.nodup_range),
    l.getElem?_labelInits List.nodup_range]
  simp only [h.mem_iff]

/-! ### Contexts -/

/-- The declarators of a declaration read as before when the declaration has been labelled. -/
lemma map_declarator_labelTree_declaration (fs : Fields) :
    ((l.labelTree (node .variableDeclaration fs)).value.get "declarations").items.map declarator =
      (field "declarations" fs).items.map declarator := by
  rw [labelTree_eq, wrapOwned_node]
  exact map_declarator_wrapSlots ..

/-- Labelling changes no binding context: not that of a pattern, of the target of an assignment or
of the head of a loop that has been walked, nor that of a declarator in a declaration that has been
labelled or in a list that has been walked.  Nor does it on the way, after whichever rounds of the
loop over the initialisers, and more generally whichever of those that are tracked hook calls have
been wrapped, with whatever labels, and whichever declarators have been walked. -/
theorem keeps_contexts :
    (∀ t : Tree,
      BindingContext.ofPattern (l.labelTree t).value.pattern = .ofPattern t.pattern ∧
      BindingContext.ofAssignTarget (l.labelTree t).value.pattern = .ofAssignTarget t.pattern ∧
      BindingContext.ofForHead (l.labelTree t).value.forHead = .ofForHead t.forHead) ∧
    (∀ (fs : Fields) (index : Nat),
      BindingContext.ofDeclarators (((l.labelTree (node .variableDeclaration fs)).value.get
          "declarations").items.map declarator) index =
        .ofDeclarators ((field "declarations" fs).items.map declarator) index) ∧
    (∀ (ds : List Tree) (index : Nat),
      BindingContext.ofDeclarators ((l.labelTrees ds).value.map declarator) index =
        .ofDeclarators (ds.map declarator) index) ∧
    (∀ (ds : List Tree) (indices : List Nat) (index : Nat),
      BindingContext.ofDeclarators ((l.labelInits ds indices).value.map declarator) index =
        .ofDeclarators (ds.map declarator) index) ∧
    ∀ ds es : List Tree, Relation.ReflTransGen l.LabelStep ds es → ∀ index : Nat,
      BindingContext.ofDeclarators (es.map declarator) index =
        .ofDeclarators (ds.map declarator) index := by
  refine ⟨fun t => ?_, fun fs index => ?_, fun ds index => ?_, fun ds indices index => ?_,
    fun ds es h index => ?_⟩
  · have hpattern : (l.labelTree t).value.pattern = t.pattern := by
      rw [labelTree_eq, (keepsReadings_wrapOwned ..).pattern, Pattern.mapIdents_id]
    have hhead : (l.labelTree t).value.forHead = t.forHead := by
      rw [labelTree_eq, forHead_wrapOwned]
    rw [hpattern, hhead]
    exact ⟨rfl, rfl, rfl⟩
  · rw [map_declarator_labelTree_declaration]
  · have hwalked : (l.labelTrees ds).value.map declarator = ds.map declarator := by
      rw [labelTrees_eq, List.map_map]
      exact List.map_congr_left fun d _ => declarator_wrapOwned _ _ d
    rw [hwalked]
  · rw [l.map_declarator_of_labelSteps (l.labelSteps_labelInits ds indices)]
  · rw [l.map_declarator_of_labelSteps h]

/-- A stage of `_s = useState(), a = _s[0], b = useRef()` at which the last initialiser has been
wrapped and then the first one, by a helper that is called like a hook: `_s` still stands for what
reads its elements. -/
theorem keeps_contexts_of_lowered_tuple :
    let l : Labeller := ⟨{ wrapperName := "useState" }, fun _ _ => true⟩
    let call (name : String) : Tree :=
      .node .callExpression [("callee", .reference name), ("arguments", .list [])]
    let element : Tree := .node .memberExpression [("object", .reference "_s"),
      ("property", .node .computed [("expression", .node .numericLiteral [("value", .num 0 0)])])]
    let binding (name : String) (init : Tree) : Tree :=
      .node (.other "VariableDeclarator") [("id", .reference name), ("init", init)]
    let ds := [binding "_s" (call "useState"), binding "a" element, binding "b" (call "useRef")]
    let es := [binding "_s" (.wrapperCall "useState" "a" (call "useState")), binding "a" element,
      binding "b" (.wrapperCall "useState" "b" (call "useRef"))]
    Relation.ReflTransGen l.LabelStep ds es ∧
    BindingContext.ofDeclarators (es.map declarator) 0 = .tuple ["a"] := by
  intro l call element binding ds es
  have hcall (hook label : String) :
      (call hook).wrap "useState" label = .wrapperCall "useState" label (call hook) := by
    rw [Tree.wrap, mapUnparenthesized]
    simp [call]
  have hstep {ds : List Tree} (index : Nat) (name hook label : String)
      (hd : ds[index]? = some (binding name (call hook))) (hhook : (l.hook? (call hook)).isSome) :
      l.LabelStep ds
        (ds.set index (binding name (.wrapperCall "useState" label (call hook)))) := by
    rw [← hcall]
    exact .wrap index label hd hhook
  let between := [binding "_s" (call "useState"), binding "a" element,
    binding "b" (.wrapperCall "useState" "b" (call "useRef"))]
  have hlast : l.LabelStep ds between := hstep 2 "b" "useRef" "b" rfl (by cbv)
  have hfirst : l.LabelStep between es := hstep 0 "_s" "useState" "a" rfl (by cbv)
  have hstage : Relation.ReflTransGen l.LabelStep ds es := .tail (.single hlast) hfirst
  have hgiven : BindingContext.ofDeclarators (ds.map declarator) 0 = .tuple ["a"] := by
    cbv
  exact ⟨hstage, (l.keeps_contexts.2.2.2.2 ds es hstage 0).trans hgiven⟩

end Labeller

end HookLabel
