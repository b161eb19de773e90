import HookLabel.Event
import HookLabel.Imports
import HookLabel.Labelling.Owner
import HookLabel.Labelling.Wrapper

/-!
# Labelling hook calls

A `Labeller` walks a tree from the top down. At a node that owns expressions it wraps those that
are tracked hook calls and have a label; then it walks the children of the node as it has become,
so that the arguments of a call that was just wrapped are walked as well. Wrapping adds no owner,
hence below an owner there are fewer owners than at it, and the walk ends.
-/

namespace HookLabel

/-- What labelling makes of something, together with the log of the work. -/
structure Labelled (α : Type) where
  value : α
  log : Log

/-- The configuration of a labelling pass, and the resolver that it trusts. -/
structure Labeller where
  config : Config
  resolver : Resolver

namespace Labeller

/-- The tracked hook that an expression calls: under its parentheses it is a call by a bare name
which is the name of the hook and resolves to an import from a tracked module. -/
def hook? (l : Labeller) (t : Tree) : Option Hook :=
  match t.unparenthesized.callee? with
  | none => none
  | some x =>
    match Hook.ofName? x.name with
    | none => none
    | some hook => if l.resolver x l.config.origins then some hook else none

/-- Labels an expression that stands in the given binding context. -/
def labelValue (l : Labeller) (context : BindingContext) (t : Tree) : Labelled Tree :=
  match l.hook? t with
  | none => ⟨t, ∅⟩
  | some hook =>
    match context.label? with
    | none => ⟨t, { events := [.leftUnbound hook] }⟩
    | some label =>
      ⟨t.wrap l.config.wrapperName label, { labelCount := 1, events := [.labelled hook label] }⟩

/-- Labels the expression in a field of a node. -/
def labelField (l : Labeller) (name : String) (context : BindingContext) (fs : Fields) :
    Labelled Fields :=
  let labelled := l.labelValue context (field name fs)
  ⟨setField name labelled.value fs, labelled.log⟩

/-- Labels the initialiser of a declarator. -/
def labelDeclarator (l : Labeller) (context : BindingContext) : Tree → Labelled Tree
  | .node kind fs =>
    let labelled := l.labelField "init" context fs
    ⟨.node kind labelled.value, labelled.log⟩
  | t => ⟨t, ∅⟩

/-- Labels the initialisers of the declarators of one declaration, from left to right. -/
def labelDeclarators (l : Labeller) : List Tree → Labelled (List Tree)
  | [] => ⟨[], ∅⟩
  | d :: ds =>
    let first := l.labelDeclarator (.ofDeclarator d.declarator (ds.map Tree.declarator)) d
    let later := l.labelDeclarators ds
    ⟨first.value :: later.value, first.log ++ later.log⟩

/-- Labels the expressions that a node owns. -/
def labelOwned (l : Labeller) (kind : Kind) (fs : Fields) : Labelled Fields :=
  match kind with
  | .variableDeclaration =>
    match field "declarations" fs with
    | .list ds =>
      let labelled := l.labelDeclarators ds
      ⟨setField "declarations" (.list labelled.value) fs, labelled.log⟩
    | _ => ⟨fs, ∅⟩
  | kind =>
    match ownedValue? kind fs with
    | some (name, context) => l.labelField name context fs
    | none => ⟨fs, ∅⟩

/-! ### Labelling keeps the number of owners -/

open HookLabel.Tree

/-- Wrapping an expression adds no owner. -/
theorem owners_wrap (wrapper label : String) (t : Tree) :
    (t.wrap wrapper label).owners = t.owners := by
  refine owners_mapUnparenthesized (fun u => ?_) t
  simp [wrapperCall, argument, reference, stringLiteral, owners, ownersOfFields, ownersOfList,
    Kind.isOwner]

/-- Labelling an expression adds no owner. -/
theorem owners_labelValue (l : Labeller) (context : BindingContext) (t : Tree) :
    (l.labelValue context t).value.owners = t.owners := by
  unfold labelValue
  split
  · rfl
  · split
    · rfl
    · exact owners_wrap ..

/-- Labelling a field adds no owner. -/
theorem ownersOfFields_labelField (l : Labeller) (name : String) (context : BindingContext)
    (fs : Fields) : ownersOfFields (l.labelField name context fs).value = ownersOfFields fs :=
  ownersOfFields_setField (owners_labelValue ..)

/-- Labelling an initialiser adds no owner. -/
theorem owners_labelDeclarator (l : Labeller) (context : BindingContext) (d : Tree) :
    (l.labelDeclarator context d).value.owners = d.owners := by
  cases d with
  | node kind fs => simp only [labelDeclarator, owners, ownersOfFields_labelField]
  | _ => rfl

/-- Labelling the initialisers of a declaration adds no owner. -/
theorem ownersOfList_labelDeclarators (l : Labeller) (ds : List Tree) :
    ownersOfList (l.labelDeclarators ds).value = ownersOfList ds := by
  induction ds with
  | nil => rfl
  | cons d ds ih => simp only [labelDeclarators, ownersOfList, owners_labelDeclarator, ih]

/-- Labelling what a node owns adds no owner. -/
theorem ownersOfFields_labelOwned (l : Labeller) (kind : Kind) (fs : Fields) :
    ownersOfFields (l.labelOwned kind fs).value = ownersOfFields fs := by
  unfold labelOwned
  split
  · split
    · rename_i ds hds
      refine ownersOfFields_setField ?_
      rw [hds]
      exact ownersOfList_labelDeclarators l ds
    · rfl
  · split
    · exact ownersOfFields_labelField ..
    · rfl

/-- There is nothing to label in a node that is no owner. -/
theorem labelOwned_of_not_isOwner (l : Labeller) {kind : Kind} (h : kind.isOwner = false)
    (fs : Fields) : l.labelOwned kind fs = ⟨fs, ∅⟩ := by
  unfold labelOwned
  split
  · simp [Kind.isOwner] at h
  · rw [ownedValue?_eq_none h]

/-! ### The walk -/

mutual

/-- Labels the hook calls of a tree. -/
def labelTree (l : Labeller) : Tree → Labelled Tree
  | node kind fs =>
    let owned := l.labelOwned kind fs
    let below := l.labelFields owned.value
    ⟨node kind below.value, owned.log ++ below.log⟩
  | list ts =>
    let below := l.labelTrees ts
    ⟨list below.value, below.log⟩
  | t => ⟨t, ∅⟩
termination_by t => (owners t, sizeOf t)
decreasing_by
  · cases hk : kind.isOwner with
    | true =>
      apply Prod.Lex.left
      rw [ownersOfFields_labelOwned]
      simp only [owners, hk, if_true]
      omega
    | false =>
      rw [labelOwned_of_not_isOwner l hk]
      apply Prod.Lex.right'
      · simp [owners]
      · simp only [node.sizeOf_spec]
        omega
  · apply Prod.Lex.right'
    · simp [owners]
    · simp only [list.sizeOf_spec]
      omega

/-- Labels the hook calls of each tree of a list, from left to right. -/
def labelTrees (l : Labeller) : List Tree → Labelled (List Tree)
  | [] => ⟨[], ∅⟩
  | t :: ts =>
    let first := l.labelTree t
    let later := l.labelTrees ts
    ⟨first.value :: later.value, first.log ++ later.log⟩
termination_by ts => (ownersOfList ts, sizeOf ts)
decreasing_by
  · apply Prod.Lex.right'
    · simp [ownersOfList]
    · simp only [List.cons.sizeOf_spec]
      omega
  · apply Prod.Lex.right'
    · simp [ownersOfList]
    · simp only [List.cons.sizeOf_spec]
      omega

/-- Labels the hook calls of each field of a node, in the order of the fields. -/
def labelFields (l : Labeller) : List (String × Tree) → Labelled Fields
  | [] => ⟨[], ∅⟩
  | (name, t) :: fs =>
    let first := l.labelTree t
    let later := l.labelFields fs
    ⟨(name, first.value) :: later.value, first.log ++ later.log⟩
termination_by fs => (ownersOfFields fs, sizeOf fs)
decreasing_by
  · apply Prod.Lex.right'
    · simp [ownersOfFields]
    · simp only [List.cons.sizeOf_spec, Prod.mk.sizeOf_spec]
      omega
  · apply Prod.Lex.right'
    · simp [ownersOfFields]
    · simp only [List.cons.sizeOf_spec]
      omega

end

end Labeller

end HookLabel
