import HookLabel.Proofs.HelperCalls
import HookLabel.Proofs.Repetition
import Mathlib.Algebra.BigOperators.Group.List.Basic
import Mathlib.Algebra.GroupWithZero.Nat
import Mathlib.Algebra.Order.Group.Multiset

/-!
# The log agrees with the tree

A labelling pass counts the calls that it labels and reports the hook and the label of each.  Both
accounts can be read off the tree: what a pass adds to the helper calls of a tree is one call for
each owned call that it labels, and in this call the name of the hook and its label.

`Tree.helperSum` adds up what a reading says of the helper calls of a tree.  A pass changes such a
sum by what the reading says of the new helper calls (`helperSum_wrapOwned`), since the helper
calls that were there before read as they did (`HelperReading`).  Counting is one reading and
listing hooks with labels another.
-/

namespace HookLabel

/-- The hook and the label of a call that an event reports as labelled. -/
def Event.labelling? : Event → Option (Hook × String)
  | labelled hook label => some (hook, label)
  | _ => none

/-- Whether an event reports that the import of the helper was added. -/
def Event.isImported : Event → Bool
  | imported .. => true
  | _ => false

namespace Tree

/-- The text that is given to the helper as the second argument of a call. -/
def givenLabel (t : Tree) : String :=
  ((((t.get "arguments").items.getD 1 null).get "expression").get "value").text

/-- The hook and the label of a helper call around a call of a hook by its bare name. -/
def labelledHook? (t : Tree) : Option (Hook × String) :=
  match t.firstArgument.callee? with
  | some x => (Hook.ofName? x.name).map fun hook => (hook, t.givenLabel)
  | none => none

/-! ### Sums over fields -/

section Sums

variable {M : Type} [AddCancelCommMonoid M]

/-- A sum over the fields of a node changes with one field by as much as this field does. -/
lemma sum_modifyField {h : String → Tree → M} {name : String} {f : Tree → Tree} {fs : Fields}
    {gain : M} (hnull : f null = null)
    (hfield : h name (f (field name fs)) = h name (field name fs) + gain) :
    ((modifyField name f fs).map fun p => h p.1 p.2).sum =
      (fs.map fun p => h p.1 p.2).sum + gain := by
  induction fs with
  | nil =>
    have hzero : gain = 0 := by
      rw [field, hnull] at hfield
      exact left_eq_add.mp hfield
    rw [hzero, add_zero]
    rfl
  | cons p fs ih =>
    obtain ⟨n, t⟩ := p
    by_cases hn : n = name
    · subst hn
      simp only [field, if_true] at hfield
      simp only [modifyField, field, setField, if_true, List.map_cons, List.sum_cons, hfield]
      rw [add_right_comm]
    · simp only [field, if_neg hn] at hfield
      have hlater := ih hfield
      simp only [modifyField] at hlater
      simp only [modifyField, field, setField, if_neg hn, List.map_cons, List.sum_cons, hlater]
      rw [add_assoc]

/-! ### Sums over helper calls -/

variable (names : String → Bool) (g : Tree → M)

/-- The sum of what a reading says of the helper calls of a tree. -/
def helperSum (t : Tree) : M := ((helperCalls names t).map g).sum

/-- The part of the sum that comes from a field of a node of the given kind. -/
def helperSumOfField (kind : Kind) (name : String) (t : Tree) : M :=
  (if isHelperCall names t && !isChainBase kind name then g t else 0) +
    ((helperCallsBelow names t).map g).sum

/-- The sum over a tree is what its root counts for and what the helper calls below it do. -/
lemma helperSum_eq (t : Tree) :
    helperSum names g t =
      (if isHelperCall names t then g t else 0) + ((helperCallsBelow names t).map g).sum := by
  rw [helperSum, helperCalls, List.map_append, List.sum_append]
  split <;> simp

/-- Only the base of an optional chain is summed up in a way of its own. -/
lemma helperSumOfField_of_name (kind : Kind) {name : String} (h : name ≠ "base") :
    helperSumOfField names g kind name = helperSum names g := by
  funext t
  have hbase : isChainBase kind name = false := by simp [isChainBase, h]
  rw [helperSumOfField, helperSum_eq, hbase, Bool.not_false, Bool.and_true]

/-- A list is summed up tree by tree. -/
lemma helperSum_list (ts : List Tree) :
    helperSum names g (list ts) = (ts.map (helperSum names g)).sum := by
  have hnone : (list ts).isHelperCall names = false := rfl
  rw [helperSum_eq, hnone, helperCallsBelow, helperCallsOfList_eq_flatten, List.map_flatten,
    List.sum_flatten, List.map_map, List.map_map]
  exact zero_add _

/-- A node is summed up by its root and then field by field. -/
lemma helperSum_node (kind : Kind) (fs : Fields) :
    helperSum names g (node kind fs) =
      (if isHelperCall names (node kind fs) then g (node kind fs) else 0) +
        (fs.map fun p => helperSumOfField names g kind p.1 p.2).sum := by
  have hfield : ∀ p : String × Tree, (((if isHelperCall names p.2 && !isChainBase kind p.1 then
      [p.2] else []) ++ helperCallsBelow names p.2).map g).sum =
        helperSumOfField names g kind p.1 p.2 := by
    intro p
    rw [List.map_append, List.sum_append, helperSumOfField]
    split <;> simp
  rw [helperSum_eq, helperCallsBelow, helperCallsOfFields_eq_flatten, List.map_flatten,
    List.sum_flatten, List.map_map, List.map_map]
  congr 2
  exact List.map_congr_left fun p _ => hfield p

/-- Summing up the helper calls of a list is summing up its trees. -/
lemma sum_helperCallsOfList (ts : List Tree) :
    ((helperCallsOfList names ts).map g).sum = (ts.map (helperSum names g)).sum := by
  rw [helperCallsOfList_eq_flatten, List.map_flatten, List.sum_flatten, List.map_map, List.map_map]
  rfl

/-! ### Readings of helper calls -/

/-- A reading of the calls of a helper: it does not depend on the calls that are wrapped below,
nor on a field called `init`, and `value` is what it says of a new helper call, by the identifier
that is called in it and the label. -/
structure HelperReading (wrapper : String) (value : Ident → String → M) : Prop where
  wrapOwned : ∀ (rule : OwnedCall → List String) (t : Tree), g (t.wrapOwned wrapper rule) = g t
  init : ∀ (kind : Kind) (f : Tree → Tree) (fs : Fields),
    g (node kind (modifyField "init" f fs)) = g (node kind fs)
  wrapperCall : ∀ (label : String) (t : Tree) (x : Ident), t.callee? = some x →
    g (wrapperCall wrapper label t) = value x label

/-- What an owned call adds to a sum when it is wrapped with its label, if it has one. -/
def gainOf (value : Ident → String → M) (label? : OwnedCall → Option String) (c : OwnedCall) : M :=
  ((label? c).map (value c.callee)).getD 0

variable {names g} {wrapper : String} {value : Ident → String → M}

/-- A new helper call adds what the reading says of it. -/
lemma helperSum_wrapperCall (hg : HelperReading g wrapper value) (hname : names wrapper)
    {t : Tree} {x : Ident} (hx : t.callee? = some x) (label : String) :
    helperSum names g (wrapperCall wrapper label t) = helperSum names g t + value x label := by
  have hshape : isHelperCall names (wrapperCall wrapper label t) := by
    rw [isHelperCall, helper?_wrapperCall]
    exact hname
  have hbelow : helperCallsBelow names (wrapperCall wrapper label t) = helperCalls names t := by
    simp [wrapperCall, argument, reference, stringLiteral, helperCallsBelow, helperCallsOfFields,
      helperCallsOfList, helperCalls, isHelperCall, helper?, isChainBase]
  rw [helperSum_eq, if_pos hshape, hbelow, hg.wrapperCall label t x hx, add_comm, helperSum]

/-- Wrapping a call under its parentheses adds what the new helper call counts for. -/
lemma helperSum_wrapCall (hg : HelperReading g wrapper value) (hname : names wrapper) {t : Tree}
    {x : Ident} (hx : t.unparenthesized.callee? = some x) (label : String) :
    helperSum names g (t.wrapCall wrapper label) = helperSum names g t + value x label := by
  fun_induction unparenthesized t with
  | case1 fs ih =>
    have hnone : ∀ gs, (node .parenthesisExpression gs).isHelperCall names = false := fun _ => rfl
    have hbase : "expression" ≠ "base" := by decide
    have hfield := helperSumOfField_of_name names g .parenthesisExpression hbase
    have hsum := sum_modifyField (h := helperSumOfField names g .parenthesisExpression)
      (wrapCall_null wrapper label) (by rw [hfield]; exact ih hx)
    rw [wrapCall_paren, helperSum_node, helperSum_node, hnone, hnone, hsum, ← add_assoc]
    rfl
  | case2 t ht =>
    have hcall : t.callee?.isSome := by rw [hx]; rfl
    rw [wrapCall_of_ne_paren _ _ ht, if_pos hcall, helperSum_wrapperCall hg hname hx]

/-- Wrapping the initialiser of a declarator changes the sum as it changes the sum over the
initialiser. -/
lemma helperSum_modifyInit (hg : HelperReading g wrapper value) {f : Tree → Tree} {d : Tree}
    {gain : M} (hnull : f null = null)
    (hinit : helperSum names g (f (d.get "init")) = helperSum names g (d.get "init") + gain) :
    helperSum names g (d.modifyInit f) = helperSum names g d + gain := by
  cases d with
  | node kind fs =>
    have hbase : "init" ≠ "base" := by decide
    have hfield := helperSumOfField_of_name names g kind hbase
    have hsum : ((modifyField "init" f fs).map fun p => helperSumOfField names g kind p.1 p.2).sum =
        (fs.map fun p => helperSumOfField names g kind p.1 p.2).sum + gain :=
      sum_modifyField hnull (by rw [hfield]; exact hinit)
    rw [modifyInit, helperSum_node, helperSum_node, isHelperCall, helper?_modifyInit, hg.init, hsum,
      isHelperCall, add_assoc]
  | _ =>
    have hgain : gain = 0 := by
      have habsent : helperSum names g (f null) = helperSum names g null + gain := hinit
      rw [hnull] at habsent
      exact left_eq_add.mp habsent
    rw [hgain, add_zero]
    rfl

/-! ### The sum after a pass -/

variable (label? : OwnedCall → Option String)

/-- What a pass adds in a slot of a node is what the owned call in it adds. -/
lemma helperSum_slot (hg : HelperReading g wrapper value) (hname : names wrapper)
    (context : BindingContext) (t : Tree) :
    helperSum names g ((t.wrapOwned wrapper fun c => (label? c).toList).wrapCalls wrapper
        (labelsOf (fun c => (label? c).toList) context t)) =
      helperSum names g (t.wrapOwned wrapper fun c => (label? c).toList) +
        ((t.ownedCall? context).toList.map (gainOf value label?)).sum := by
  cases hcall : t.ownedCall? context with
  | none =>
    have hlabels : labelsOf (fun c => (label? c).toList) context t = [] := by
      rw [labelsOf, hcall]
      rfl
    rw [hlabels, Option.toList_none, List.map_nil, List.sum_nil, add_zero]
    rfl
  | some c =>
    have hlabels : labelsOf (fun c => (label? c).toList) context t = (label? c).toList := by
      rw [labelsOf, hcall]
      rfl
    obtain ⟨x, hx, rfl⟩ := Option.map_eq_some_iff.mp hcall
    have hcallee : (t.wrapOwned wrapper fun c => (label? c).toList).unparenthesized.callee? =
        some x := by
      rw [unparenthesized_wrapOwned, callee?_wrapOwned, hx]
    rw [hlabels, Option.toList_some, List.map_singleton, List.sum_singleton, gainOf]
    cases label? ⟨x, context⟩ with
    | none => exact (add_zero _).symm
    | some label => exact helperSum_wrapCall hg hname hcallee label

/-- Wrapped initialisers add what their labelled calls gain. -/
lemma sum_initsAfter (hg : HelperReading g wrapper value) (hname : names wrapper)
    (ds : List Tree) :
    ((initsAfter wrapper (fun c => (label? c).toList) ds).map (helperSum names g)).sum =
      ((ds.map (wrapOwned wrapper fun c => (label? c).toList)).map (helperSum names g)).sum +
        ((initCalls ds).map (gainOf value label?)).sum := by
  induction ds with
  | nil => exact (add_zero _).symm
  | cons d ds ih =>
    have hinit := helperSum_slot label? hg hname
      (.ofDeclarator d.declarator (ds.map declarator)) (d.get "init")
    rw [← get_init_wrapOwned] at hinit
    have hfirst := helperSum_modifyInit hg (wrapCalls_null ..) hinit
    rw [initsAfter_cons, initCalls, List.map_cons, List.map_cons, List.map_cons, List.map_append,
      List.sum_cons, List.sum_cons, List.sum_append, ih, hfirst]
    exact add_add_add_comm ..

/-- What a pass adds in the slots of a node is what the calls that the node owns add. -/
lemma sum_wrapSlots (hg : HelperReading g wrapper value) (hname : names wrapper) (kind : Kind)
    (fs : Fields) :
    ((wrapSlots wrapper (fun c => (label? c).toList) kind fs
        (mapFields (wrapOwned wrapper fun c => (label? c).toList) fs)).map fun p =>
          helperSumOfField names g kind p.1 p.2).sum =
      ((mapFields (wrapOwned wrapper fun c => (label? c).toList) fs).map fun p =>
          helperSumOfField names g kind p.1 p.2).sum +
        ((slotCalls kind fs).map (gainOf value label?)).sum := by
  have hslot : ∀ name ∈ slotNames, helperSumOfField names g kind name = helperSum names g := by
    intro name hname
    exact helperSumOfField_of_name names g kind (ne_of_mem_of_not_mem hname (by decide))
  by_cases hkind : kind = .variableDeclaration
  · subst hkind
    rw [wrapSlots, slotEdit, slotCalls]
    refine sum_modifyField rfl ?_
    rw [hslot "declarations" (by decide), field_mapFields (wrapOwned_null ..)]
    cases field "declarations" fs with
    | list ts =>
      rw [wrapOwned_list, mapItems, helperSum_list, helperSum_list]
      exact sum_initsAfter label? hg hname ts
    | node k gs => rw [wrapOwned_node]; exact (add_zero _).symm
    | _ => exact (add_zero _).symm
  · rw [wrapSlots, slotEdit_of_ne_declaration _ _ hkind, slotCalls_of_ne_declaration hkind]
    cases hkindSlot : kind.slot? with
    | none => exact (add_zero _).symm
    | some name =>
      refine sum_modifyField (wrapCalls_null ..) ?_
      rw [hslot name (slot?_mem_slotNames hkindSlot), field_mapFields (wrapOwned_null ..)]
      exact helperSum_slot label? hg hname (slotContext kind fs) (field name fs)

/-- What a pass adds in a field is what it adds to the tree there: whether that tree is a helper
call, and how it reads as one, stays as it is. -/
lemma helperSumOfField_wrapOwned (hg : HelperReading g wrapper value)
    (rule : OwnedCall → List String) {t : Tree} {gain : M}
    (ht : helperSum names g (t.wrapOwned wrapper rule) = helperSum names g t + gain)
    (kind : Kind) (name : String) :
    helperSumOfField names g kind name (t.wrapOwned wrapper rule) =
      helperSumOfField names g kind name t + gain := by
  have hbelow : ((helperCallsBelow names (t.wrapOwned wrapper rule)).map g).sum =
      ((helperCallsBelow names t).map g).sum + gain := by
    rw [helperSum_eq, helperSum_eq, isHelperCall_wrapOwned, hg.wrapOwned, add_assoc] at ht
    exact add_left_cancel ht
  rw [helperSumOfField, helperSumOfField, isHelperCall_wrapOwned, hg.wrapOwned, hbelow, add_assoc]

/-- A pass adds to the sum over the helper calls of a tree what each of its owned calls adds; the
helper calls that were there before keep their part. -/
theorem helperSum_wrapOwned (hg : HelperReading g wrapper value) (hname : names wrapper)
    (t : Tree) :
    helperSum names g (t.wrapOwned wrapper fun c => (label? c).toList) =
      helperSum names g t + (t.ownedCalls.map (gainOf value label?)).sum := by
  induction t using partsInduction with
  | null | bool b | num m d | str s => exact (add_zero _).symm
  | list ts ih =>
    have hitems := congrArg List.sum (List.map_congr_left ih)
    rw [List.sum_map_add] at hitems
    rw [wrapOwned_list, helperSum_list, helperSum_list, List.map_map, ownedCalls,
      ownedCallsOfList_eq, List.map_flatten, List.sum_flatten, List.map_map, List.map_map]
    exact hitems
  | node kind fs ih =>
    have hfields := congrArg List.sum (List.map_congr_left fun p hp =>
      helperSumOfField_wrapOwned hg _ (ih p hp) kind p.1)
    rw [List.sum_map_add] at hfields
    have hbelow : ((ownedCallsOfFields fs).map (gainOf value label?)).sum =
        (fs.map fun p => (p.2.ownedCalls.map (gainOf value label?)).sum).sum := by
      rw [ownedCallsOfFields_eq, List.map_flatten, List.sum_flatten, List.map_map, List.map_map,
        List.map_map]
      rfl
    have hslots : ((wrapSlots wrapper (fun c => (label? c).toList) kind fs
        (mapFields (wrapOwned wrapper fun c => (label? c).toList) fs)).map fun p =>
          helperSumOfField names g kind p.1 p.2).sum =
        (fs.map fun p => helperSumOfField names g kind p.1 p.2).sum +
          ((ownedCallsOfFields fs).map (gainOf value label?)).sum +
          ((slotCalls kind fs).map (gainOf value label?)).sum := by
      rw [sum_wrapSlots label? hg hname, mapFields, List.map_map, hbelow, ← hfields]
      rfl
    have hown := hg.wrapOwned (fun c => (label? c).toList) (node kind fs)
    have hshape := isHelperCall_wrapOwned names wrapper (fun c => (label? c).toList) (node kind fs)
    rw [wrapOwned_node] at hown hshape
    rw [wrapOwned_node, helperSum_node, helperSum_node, hown, hshape, hslots, ownedCalls,
      List.map_append, List.sum_append, add_assoc, add_assoc,
      add_comm ((ownedCallsOfFields fs).map (gainOf value label?)).sum]

/-- So it does in the trees of a list. -/
lemma sum_helperCallsOfList_wrapOwned (hg : HelperReading g wrapper value)
    (hname : names wrapper) (ts : List Tree) :
    ((helperCallsOfList names (ts.map (wrapOwned wrapper fun c => (label? c).toList))).map g).sum =
      ((helperCallsOfList names ts).map g).sum +
        ((ownedCallsOfList ts).map (gainOf value label?)).sum := by
  have hlist := helperSum_wrapOwned label? hg hname (list ts)
  rw [wrapOwned_list, helperSum_list, helperSum_list, ownedCalls] at hlist
  rw [sum_helperCallsOfList, sum_helperCallsOfList]
  exact hlist

end Sums

/-! ### Two readings -/

/-- Counting is a reading: every new helper call counts one. -/
lemma helperReading_one (wrapper : String) :
    HelperReading (fun _ => 1) wrapper (fun _ _ => (1 : ℕ)) :=
  ⟨fun _ _ => rfl, fun _ _ _ => rfl, fun _ _ _ _ => rfl⟩

section Hooks

variable (wrapper : String) (rule : OwnedCall → List String)

/-- The arguments of a call are wrapped one by one. -/
lemma items_get_arguments_wrapOwned (t : Tree) :
    ((t.wrapOwned wrapper rule).get "arguments").items =
      (t.get "arguments").items.map (wrapOwned wrapper rule) := by
  have harguments : "arguments" ∉ slotNames := by decide
  rw [get_wrapOwned wrapper rule harguments, items_wrapOwned]

/-- The call in a helper call is the one that was there, with the calls below it wrapped. -/
lemma firstArgument_wrapOwned (t : Tree) :
    (t.wrapOwned wrapper rule).firstArgument = t.firstArgument.wrapOwned wrapper rule := by
  have hexpression : "expression" ∉ slotNames := by decide
  rw [firstArgument, firstArgument, items_get_arguments_wrapOwned,
    ← get_wrapOwned wrapper rule hexpression]
  cases (t.get "arguments").items <;> rfl

/-- A helper call keeps the label that it gives. -/
lemma givenLabel_wrapOwned (t : Tree) : (t.wrapOwned wrapper rule).givenLabel = t.givenLabel := by
  have hexpression : "expression" ∉ slotNames := by decide
  have hitem : ((t.get "arguments").items.map (wrapOwned wrapper rule)).getD 1 null =
      ((t.get "arguments").items.getD 1 null).wrapOwned wrapper rule := by
    simp only [List.getD_eq_getElem?_getD, List.getElem?_map]
    cases (t.get "arguments").items[1]? <;> rfl
  rw [givenLabel, givenLabel, items_get_arguments_wrapOwned, hitem,
    get_wrapOwned wrapper rule hexpression, (keepsReadings_wrapOwned wrapper rule).text_get_value]

/-- A helper call keeps the hook that it labels. -/
lemma labelledHook?_wrapOwned (t : Tree) :
    (t.wrapOwned wrapper rule).labelledHook? = t.labelledHook? := by
  rw [labelledHook?, labelledHook?, firstArgument_wrapOwned, callee?_wrapOwned,
    givenLabel_wrapOwned]

/-- An initialiser has no part in what a helper call labels. -/
lemma labelledHook?_modifyInit (kind : Kind) (f : Tree → Tree) (fs : Fields) :
    (node kind (modifyField "init" f fs)).labelledHook? = (node kind fs).labelledHook? := by
  have harguments : (node kind (modifyField "init" f fs)).get "arguments" =
      (node kind fs).get "arguments" := field_modifyField_of_ne (by decide) f fs
  rw [labelledHook?, labelledHook?, firstArgument, firstArgument, givenLabel, givenLabel,
    harguments]

/-- A helper call that is put around the call of a hook labels the hook. -/
lemma labelledHook?_wrapperCall {t : Tree} {x : Ident} (h : t.callee? = some x)
    (label : String) :
    (wrapperCall wrapper label t).labelledHook? =
      (Hook.ofName? x.name).map fun hook => (hook, label) := by
  have hfirst : (wrapperCall wrapper label t).firstArgument = t := rfl
  have hlabel : (wrapperCall wrapper label t).givenLabel = label := rfl
  rw [labelledHook?, hfirst, hlabel, h]

/-- Listing hooks with labels is a reading. -/
lemma helperReading_labelledHook? :
    HelperReading (fun t => (t.labelledHook?.toList : Multiset (Hook × String))) wrapper
      fun x label => ((Hook.ofName? x.name).map fun hook => (hook, label)).toList where
  wrapOwned rule t := by rw [labelledHook?_wrapOwned]
  init kind f fs := by rw [labelledHook?_modifyInit]
  wrapperCall label t x hx := by rw [labelledHook?_wrapperCall wrapper hx]

end Hooks

end Tree

/-! ### The log -/

namespace Labeller

variable (l : Labeller)

/-- The label of an owned call is the one that is reported. -/
lemma labelling?_event? (c : OwnedCall) :
    (l.event? c).bind Event.labelling? =
      (l.label? c).bind fun label => (Hook.ofName? c.callee.name).map fun hook => (hook, label) := by
  unfold event? label?
  cases Hook.ofName? c.callee.name with
  | none => rfl
  | some hook =>
    by_cases hresolved : l.resolver c.callee l.config.origins
    · cases hlabel : c.context.label? <;> simp [hresolved, Event.labelling?]
    · simp [hresolved]

/-- There is a report of a label exactly if there is a label. -/
lemma isSome_labelling?_event? (c : OwnedCall) :
    ((l.event? c).bind Event.labelling?).isSome = (l.label? c).isSome := by
  rw [labelling?_event?]
  cases hlabel : l.label? c with
  | none => rfl
  | some label =>
    rw [label?] at hlabel
    have htracked := (Option.ite_none_right_eq_some.mp hlabel).1
    rw [Bool.and_eq_true] at htracked
    obtain ⟨hook, hhook⟩ := Option.isSome_iff_exists.mp htracked.1
    rw [hhook]
    rfl

/-- Labelling adds no import. -/
lemma isImported_event? {c : OwnedCall} {e : Event} (h : l.event? c = some e) :
    e.isImported = false := by
  have hhook := l.isSome_hook?_of_event? h
  cases e with
  | imported count source => cases hhook
  | _ => rfl

/-- The labels that a log reports are those of the owned calls. -/
lemma labelling?_logOf (cs : List OwnedCall) :
    (l.logOf cs).events.filterMap Event.labelling? =
      cs.filterMap fun c => (l.event? c).bind Event.labelling? := by
  rw [logOf, List.filterMap_filterMap]

/-- A log reports as many labels as it counts. -/
lemma length_labelling?_logOf (cs : List OwnedCall) :
    ((l.logOf cs).events.filterMap Event.labelling?).length = (l.logOf cs).labelCount := by
  rw [labelling?_logOf, List.length_filterMap_eq_countP, logOf]
  exact List.countP_congr fun c _ => by rw [isSome_labelling?_event?]

open HookLabel.Tree

/-- What the owned calls add to the count is what the log counts. -/
lemma sum_gainOf_one (cs : List OwnedCall) :
    (cs.map (gainOf (fun _ _ => (1 : ℕ)) l.label?)).sum = (l.logOf cs).labelCount := by
  induction cs with
  | nil => rfl
  | cons c cs ih =>
    have hcount : (l.logOf (c :: cs)).labelCount =
        (l.logOf cs).labelCount + if (l.label? c).isSome then 1 else 0 := by
      rw [logOf, logOf, List.countP_cons]
    rw [List.map_cons, List.sum_cons, ih, hcount, gainOf, add_comm]
    cases l.label? c <;> rfl

/-- What the owned calls add to the hooks with labels is what the log reports. -/
lemma sum_gainOf_labelledHook? (cs : List OwnedCall) :
    (cs.map (gainOf (fun x label => (((Hook.ofName? x.name).map fun hook =>
        (hook, label)).toList : Multiset (Hook × String))) l.label?)).sum =
      ((l.logOf cs).events.filterMap Event.labelling? : List _) := by
  rw [labelling?_logOf]
  induction cs with
  | nil => rfl
  | cons c cs ih =>
    rw [List.map_cons, List.sum_cons, ih, List.filterMap_cons, labelling?_event?, gainOf]
    cases l.label? c with
    | none => exact zero_add _
    | some label =>
      cases Hook.ofName? c.callee.name with
      | none => exact zero_add _
      | some hook => rfl

end Labeller

namespace Module

variable (m : Module) (config : Config) (resolver : Resolver)

/-- The helper calls of a module. -/
def helperCalls (names : String → Bool) : List Tree := Tree.helperCallsOfList names m.body

/-- The hooks and labels of the helper calls of a module that are around a call of a hook. -/
def labelledHooks (names : String → Bool) : Multiset (Hook × String) :=
  (m.helperCalls names).filterMap Tree.labelledHook?

/-- The labelled hooks of a module, as a sum over its helper calls. -/
lemma labelledHooks_eq_sum (names : String → Bool) :
    m.labelledHooks names =
      ((m.helperCalls names).map fun t => (t.labelledHook?.toList : Multiset _)).sum := by
  rw [labelledHooks]
  induction m.helperCalls names with
  | nil => rfl
  | cons t ts ih =>
    rw [List.map_cons, List.sum_cons, ← ih, List.filterMap_cons]
    cases t.labelledHook? with
    | none => exact (zero_add _).symm
    | some p => rfl

/-- Labelling adds as many helper calls as it counts labels. -/
lemma length_helperCalls_label {names : String → Bool} (hname : names config.wrapperName) :
    ((m.label config resolver).value.helperCalls names).length =
      (m.helperCalls names).length + (m.label config resolver).log.labelCount := by
  have hsum := Tree.sum_helperCallsOfList_wrapOwned (Labeller.label? ⟨config, resolver⟩)
    (Tree.helperReading_one config.wrapperName) hname m.body
  have hlength : ∀ ts : List Tree, (ts.map fun _ => 1).sum = ts.length := by
    intro ts
    simp
  rw [Labeller.sum_gainOf_one, hlength, hlength] at hsum
  rw [label_eq]
  exact hsum

/-- Labelling adds the labelled hooks that it reports. -/
lemma labelledHooks_label {names : String → Bool} (hname : names config.wrapperName) :
    (m.label config resolver).value.labelledHooks names =
      m.labelledHooks names +
        ((m.label config resolver).log.events.filterMap Event.labelling? : List _) := by
  have hsum := Tree.sum_helperCallsOfList_wrapOwned (Labeller.label? ⟨config, resolver⟩)
    (Tree.helperReading_labelledHook? config.wrapperName) hname m.body
  rw [Labeller.sum_gainOf_labelledHook?] at hsum
  rw [labelledHooks_eq_sum, labelledHooks_eq_sum, label_eq]
  exact hsum

/-- Labelling changes a module exactly if it labels a call: a call that is labelled makes the helper
calls more. -/
lemma value_label_eq_self_iff :
    (m.label config resolver).value = m ↔ (m.label config resolver).log.labelCount = 0 := by
  constructor
  · intro heq
    have hname : (fun name => name == config.wrapperName) config.wrapperName = true :=
      beq_self_eq_true _
    have hcount := m.length_helperCalls_label config resolver hname
    rw [heq] at hcount
    exact left_eq_add.mp hcount
  · exact m.value_label_of_labelCount_eq_zero config

/-- The imports that a run reports: one if it labelled a call, with the number of labelled calls. -/
lemma isImported_run :
    (m.run config).log.events.filter Event.isImported =
      if (m.run config).log.labelCount = 0 then []
      else [.imported (m.run config).log.labelCount config.wrapperSource] := by
  have hcalls : ((Tree.ownedCallsOfList m.body).filterMap (m.labeller config).event?).filter
      Event.isImported = [] := by
    rw [List.filter_eq_nil_iff]
    intro e he
    obtain ⟨c, -, hc⟩ := List.mem_filterMap.mp he
    rw [Labeller.isImported_event? _ hc]
    exact Bool.false_ne_true
  rw [events_run, List.filter_append, hcalls, List.nil_append]
  split <;> rfl

/-- The log agrees with the tree.  Labelling makes the helper calls more by as many as it counts;
the hooks and labels that it reports are, with their multiplicities, those by which the helper calls
around a hook call become more, and as many as it counts; its log is dirty exactly if the module has
changed.  So a run leaves a module as it is exactly if it labels no call, and otherwise it reports
one import, with the number of calls that it has labelled. -/
theorem label_log_agrees (m : Module) (config : Config) (resolver : Resolver) :
    let isHelper : String → Bool := fun name => name == config.wrapperName
    let labelled := m.label config resolver
    let ran := m.run config
    (labelled.value.helperCalls isHelper).length =
      (m.helperCalls isHelper).length + labelled.log.labelCount ∧
    labelled.value.labelledHooks isHelper =
      m.labelledHooks isHelper + (labelled.log.events.filterMap Event.labelling? : List _) ∧
    (labelled.log.events.filterMap Event.labelling?).length = labelled.log.labelCount ∧
    (labelled.log.isDirty ↔ labelled.value ≠ m) ∧
    (ran.value = m ↔ ran.log.labelCount = 0) ∧
    ran.log.events.filter Event.isImported =
      if ran.log.labelCount = 0 then []
      else [.imported ran.log.labelCount config.wrapperSource] := by
  intro isHelper labelled ran
  have hname : isHelper config.wrapperName = true := beq_self_eq_true _
  have hlength : (labelled.log.events.filterMap Event.labelling?).length =
      labelled.log.labelCount := by
    simp only [labelled, label_eq, Labeller.length_labelling?_logOf]
  have hdirty : labelled.log.isDirty ↔ labelled.value ≠ m := by
    rw [Ne, value_label_eq_self_iff, Log.isDirty, decide_eq_true_eq, Nat.pos_iff_ne_zero]
  exact ⟨m.length_helperCalls_label config resolver hname,
    m.labelledHooks_label config resolver hname, hlength, hdirty,
    m.run_value_eq_self_iff config, m.isImported_run config⟩

end Module

end HookLabel
