import HookLabel.Module
import HookLabel.Proofs.Wrapping

/-!
# Labelling decides on the tree as it is given

The labelling walk wraps a call before it walks on into it, and walks what it has just wrapped.
`labelTree_eq` says that it nevertheless comes to what one reads off the given tree: the tree in
which every owned call is wrapped with the label that the labeller gives it, and the log of the
owned calls in the order in which they stand.
-/

namespace HookLabel

namespace Labeller

variable (l : Labeller)

/-! ### What a labeller makes of an owned call -/

/-- The label of an owned call: there is one if the call is of a tracked hook, is resolved to one
of the tracked modules, and has a value that some name is bound to. -/
def label? (c : OwnedCall) : Option String :=
  if (Hook.ofName? c.callee.name).isSome && l.resolver c.callee l.config.origins then
    c.context.label?
  else none

/-- The labels that an owned call is wrapped with: its label, if it has one. -/
def labels (c : OwnedCall) : List String := (l.label? c).toList

/-- What is reported about an owned call: nothing unless it is a tracked hook call. -/
def event? (c : OwnedCall) : Option Event :=
  match Hook.ofName? c.callee.name with
  | some hook =>
    if l.resolver c.callee l.config.origins then
      some ((c.context.label?.map (Event.labelled hook)).getD (.leftUnbound hook))
    else none
  | none => none

/-- What is reported about an owned call is about a hook. -/
lemma isSome_hook?_of_event? {c : OwnedCall} {e : Event} (h : l.event? c = some e) :
    e.hook?.isSome := by
  unfold event? at h
  cases hhook : Hook.ofName? c.callee.name with
  | none => simp [hhook] at h
  | some hook =>
    rw [hhook] at h
    obtain ⟨-, he⟩ := Option.ite_none_right_eq_some.mp h
    rw [← Option.some.inj he]
    cases c.context.label? <;> rfl

/-- The log of a list of owned calls. -/
def logOf (cs : List OwnedCall) : Log where
  labelCount := cs.countP fun c => (l.label? c).isSome
  events := cs.filterMap l.event?

/-- Nothing is reported about no calls. -/
@[simp] lemma logOf_nil : l.logOf [] = ∅ := rfl

/-- Calls are reported in their order. -/
lemma logOf_append (cs ds : List OwnedCall) :
    l.logOf (cs ++ ds) = l.logOf cs ++ l.logOf ds := by
  simp only [logOf, List.countP_append, List.filterMap_append]
  rfl

/-! ### One node -/

open HookLabel.Tree

/-- Labelling an expression wraps the owned call that it is, if it is one, and logs it. -/
lemma labelValue_eq (context : BindingContext) (t : Tree) :
    l.labelValue context t =
      ⟨t.wrapCalls l.config.wrapperName (labelsOf l.labels context t),
        l.logOf (t.ownedCall? context).toList⟩ := by
  unfold labelValue hook? labelsOf ownedCall?
  cases hcallee : t.unparenthesized.callee? with
  | none => rfl
  | some x =>
    cases hhook : Hook.ofName? x.name with
    | none =>
      simp [labels, label?, event?, logOf, hhook, wrapCalls, EmptyCollection.emptyCollection]
    | some hook =>
      cases hresolved : l.resolver x l.config.origins with
      | false =>
        simp [labels, label?, event?, logOf, hhook, hresolved, wrapCalls,
          EmptyCollection.emptyCollection]
      | true =>
        cases hlabel : context.label? with
        | none => simp [labels, label?, event?, logOf, hhook, hresolved, hlabel, wrapCalls]
        | some label =>
          have hcall : t.unparenthesized.callee?.isSome := by rw [hcallee]; rfl
          simp [labels, label?, event?, logOf, hhook, hresolved, hlabel, wrapCalls,
            wrapCall_eq_wrap _ _ hcall]

/-- A field is wrapped in the labels of the call in it, and the call is reported. -/
lemma labelField_eq (name : String) (context : BindingContext) (fs : Fields) :
    l.labelField name context fs =
      ⟨modifyField name (wrapCalls l.config.wrapperName (labelsOf l.labels context
          (field name fs))) fs,
        l.logOf ((field name fs).ownedCall? context).toList⟩ := by
  rw [labelField, labelValue_eq]
  rfl

/-- Labelling the initialiser of a declarator. -/
lemma labelDeclarator_eq (context : BindingContext) (d : Tree) :
    l.labelDeclarator context d =
      ⟨d.modifyInit (wrapCalls l.config.wrapperName (labelsOf l.labels context (d.get "init"))),
        l.logOf ((d.get "init").ownedCall? context).toList⟩ := by
  cases d with
  | node kind fs => rw [labelDeclarator, labelField_eq]; rfl
  | _ =>
    have habsent : null.ownedCall? context = none := ownedCall?_null context
    show Labelled.mk _ _ = Labelled.mk _ (l.logOf (null.ownedCall? context).toList)
    rw [habsent]
    rfl

/-- The declarators of a declaration are labelled one after the other, but each by what the later
ones were: the earlier ones are not looked at. -/
lemma labelDeclarators_eq (ds : List Tree) :
    l.labelDeclarators ds =
      ⟨wrapInits l.config.wrapperName l.labels ds ds, l.logOf (initCalls ds)⟩ := by
  induction ds with
  | nil => rfl
  | cons d ds ih =>
    rw [labelDeclarators, ih, labelDeclarator_eq, wrapInits, initCalls, logOf_append]

/-- Labelling what a node owns wraps its slots, by the fields of the node as they are. -/
theorem labelOwned_eq (kind : Kind) (fs : Fields) :
    l.labelOwned kind fs =
      ⟨wrapSlots l.config.wrapperName l.labels kind fs fs, l.logOf (slotCalls kind fs)⟩ := by
  by_cases hkind : kind = .variableDeclaration
  · subst hkind
    have hkeep := setField_field "declarations" fs
    cases hds : field "declarations" fs with
    | list ds =>
      simp only [labelOwned, wrapSlots, slotEdit, slotCalls, modifyField, hds, labelDeclarators_eq,
        mapItems, items]
    | _ =>
      rw [hds] at hkeep
      simp only [labelOwned, wrapSlots, slotEdit, slotCalls, modifyField, hds, mapItems, items,
        hkeep, initCalls, logOf_nil]
  · have hslot := slotEdit_of_ne_declaration l.config.wrapperName l.labels hkind fs
    rw [wrapSlots, hslot, slotCalls_of_ne_declaration hkind, labelOwned]
    · rw [ownedValue?_eq]
      cases kind.slot? with
      | none => rfl
      | some name => exact l.labelField_eq name (slotContext kind fs) fs
    · exact hkind

/-! ### The walk -/

/-- The walk comes to what is read off the given tree.  The induction follows the walk, which goes
on into the fields of a node as they have become; `mapFields_wrapSlots` and `ownedCalls` seeing
through helper calls bring them back to the fields as they were. -/
theorem labelTree_eq (t : Tree) :
    l.labelTree t = ⟨t.wrapOwned l.config.wrapperName l.labels, l.logOf t.ownedCalls⟩ := by
  refine @labelTree.induct l
    (fun t => l.labelTree t =
      ⟨t.wrapOwned l.config.wrapperName l.labels, l.logOf t.ownedCalls⟩)
    (fun ts => l.labelTrees ts =
      ⟨ts.map (wrapOwned l.config.wrapperName l.labels), l.logOf (ownedCallsOfList ts)⟩)
    (fun fs => l.labelFields fs =
      ⟨mapFields (wrapOwned l.config.wrapperName l.labels) fs, l.logOf (ownedCallsOfFields fs)⟩)
    ?node ?list ?leaf ?nil ?cons ?noFields ?fields t
  case node =>
    intro kind fs owned ih
    have howned : l.labelOwned kind fs =
        ⟨wrapSlots l.config.wrapperName l.labels kind fs fs, l.logOf (slotCalls kind fs)⟩ :=
      l.labelOwned_eq kind fs
    have hcalls : ownedCallsOfFields owned.value = ownedCallsOfFields fs := by
      have hmap := (seesThrough_ownedCalls l.config.wrapperName).map_wrapSlots (fun _ _ => rfl)
        l.labels kind fs fs
      simp only [owned, howned, ownedCallsOfFields_eq, hmap]
    -- the fields are walked after their calls are wrapped, and wrapped after they are rebuilt
    rw [labelTree, ih, hcalls, wrapOwned_node, ownedCalls, logOf_append]
    simp only [owned, howned, mapFields_wrapSlots]
  case list =>
    intro ts ih
    rw [labelTree, ih, wrapOwned_list, ownedCalls]
  case leaf =>
    intro t hnode hlist
    cases t with
    | node kind fs => exact absurd rfl (hnode kind fs)
    | list ts => exact absurd rfl (hlist ts)
    | _ => rw [labelTree] <;> first | rfl | simp
  case nil => rw [labelTrees]; rfl
  case cons =>
    intro t ts ht hts
    rw [labelTrees, ht, hts, ownedCallsOfList, logOf_append]
    rfl
  case noFields => rw [labelFields]; rfl
  case fields =>
    intro name t fs ht hfs
    rw [labelFields, ht, hfs, ownedCallsOfFields, logOf_append]
    rfl

/-- So does the walk over the trees of a list. -/
theorem labelTrees_eq (ts : List Tree) :
    l.labelTrees ts =
      ⟨ts.map (wrapOwned l.config.wrapperName l.labels), l.logOf (ownedCallsOfList ts)⟩ := by
  induction ts with
  | nil => rw [labelTrees]; rfl
  | cons t ts ih =>
    rw [labelTrees, labelTree_eq, ih, ownedCallsOfList, logOf_append]
    rfl

end Labeller

namespace Module

/-- Labelling a module labels its items and nothing else. -/
lemma label_eq (m : Module) (config : Config) (resolver : Resolver) :
    m.label config resolver =
      ⟨{ m with
          body := m.body.map (Tree.wrapOwned config.wrapperName
            (Labeller.labels ⟨config, resolver⟩)) },
        Labeller.logOf ⟨config, resolver⟩ (Tree.ownedCallsOfList m.body)⟩ := by
  rw [label, Labeller.labelTrees_eq]

/-- Labelling the hook calls of a module, read off the module as it is given: every owned call of
the module is wrapped with its label if it has one, and as many calls are counted as have one. -/
theorem label_eq_wrapOwned (m : Module) (config : Config) (resolver : Resolver) :
    (m.label config resolver).value =
      { m with
        body := m.body.map (Tree.wrapOwned config.wrapperName
          (Labeller.labels ⟨config, resolver⟩)) } ∧
    (m.label config resolver).log.labelCount =
      (Tree.ownedCallsOfList m.body).countP fun c =>
        (Labeller.label? ⟨config, resolver⟩ c).isSome := by
  rw [label_eq]
  exact ⟨rfl, rfl⟩

end Module

end HookLabel
