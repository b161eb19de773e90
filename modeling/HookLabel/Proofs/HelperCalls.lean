import HookLabel.Proofs.Passes

/-!
# Helper calls and their erasure

A call has the shape of a helper call when it calls a helper by its bare name, in the outermost
syntax context, with two arguments that are not spread, the second of which is a string literal.
`Tree.helperCalls` lists the calls of that shape in a tree, and `Tree.erase` replaces each of them
by its first argument.

Wrapping the owned calls of a tree is undone by erasure (`erase_wrapOwned`), also where the tree
already holds calls of that shape: the shape of a call is not touched by what happens below it.
-/

namespace HookLabel

/-- The base of an optional chain is a part of the chain and no expression of its own. -/
def isChainBase (kind : Kind) (name : String) : Bool :=
  kind = .other "OptionalChainingExpression" && name = "base"

namespace Tree

/-! ### The shape of a helper call -/

/-- Whether a tree is a string written out. -/
def isStringLiteral : Tree → Bool
  | node .stringLiteral _ => true
  | _ => false

/-- The root tells whether a tree is a string literal. -/
lemma readsRoot_isStringLiteral : ReadsRoot isStringLiteral :=
  ⟨fun kind _ _ => by cases kind <;> rfl, fun _ _ => rfl⟩

/-- The name of the helper that a call of the shape of a helper call calls. -/
def helper? : Tree → Option String
  | node .callExpression fs =>
    match (field "callee" fs).ident?, (field "arguments" fs).items with
    | some ⟨name, 0⟩, [call, label] =>
      if (call.get "spread").isNull && (label.get "spread").isNull &&
          (label.get "expression").isStringLiteral then some name
      else none
    | _, _ => none
  | _ => none

/-- Whether a tree is a call of the shape of a helper call, for a set of helper names. -/
def isHelperCall (names : String → Bool) (t : Tree) : Bool := t.helper?.any names

/-- The first argument of a call. -/
def firstArgument (t : Tree) : Tree :=
  ((t.get "arguments").items.headD null).get "expression"

section Names

variable (names : String → Bool)

mutual

/-- The helper calls below a tree. -/
def helperCallsBelow : Tree → List Tree
  | node kind fs => helperCallsOfFields kind fs
  | list ts => helperCallsOfList ts
  | _ => []

/-- The helper calls in the trees of a list, each before those below it. -/
def helperCallsOfList : List Tree → List Tree
  | [] => []
  | t :: ts =>
    (if isHelperCall names t then [t] else []) ++ helperCallsBelow t ++ helperCallsOfList ts

/-- The helper calls in the fields of a node of the given kind. -/
def helperCallsOfFields (kind : Kind) : List (String × Tree) → List Tree
  | [] => []
  | (name, t) :: fs =>
    (if isHelperCall names t && !isChainBase kind name then [t] else []) ++ helperCallsBelow t ++
      helperCallsOfFields kind fs

end

/-- The helper calls of a tree, each before those below it. -/
def helperCalls (t : Tree) : List Tree :=
  (if isHelperCall names t then [t] else []) ++ helperCallsBelow names t

mutual

/-- Replaces every helper call below a tree by its first argument. -/
def eraseBelow : Tree → Tree
  | node kind fs => node kind (eraseFields kind fs)
  | list ts => list (eraseList ts)
  | t => t

/-- Replaces every helper call in the trees of a list by its first argument. -/
def eraseList : List Tree → List Tree
  | [] => []
  | t :: ts =>
    (if isHelperCall names t then (eraseBelow t).firstArgument else eraseBelow t) :: eraseList ts

/-- Replaces every helper call in the fields of a node of the given kind by its first argument. -/
def eraseFields (kind : Kind) : List (String × Tree) → List (String × Tree)
  | [] => []
  | (name, t) :: fs =>
    (name, if isHelperCall names t && !isChainBase kind name then (eraseBelow t).firstArgument
      else eraseBelow t) :: eraseFields kind fs

end

/-- Replaces every helper call of a tree by its first argument.  Which calls are helper calls is
decided before anything below them is replaced. -/
def erase (t : Tree) : Tree :=
  if isHelperCall names t then (eraseBelow names t).firstArgument else eraseBelow names t

/-- What erasure makes of a field of a node of the given kind. -/
def eraseField (kind : Kind) (name : String) (t : Tree) : Tree :=
  if isChainBase kind name then eraseBelow names t else erase names t

/-! ### Erasing lists and fields -/

/-- The trees of a list are erased one by one. -/
lemma eraseList_eq_map (ts : List Tree) : eraseList names ts = ts.map (erase names) := by
  induction ts with
  | nil => rfl
  | cons t ts ih => rw [eraseList, ih, List.map_cons, erase]

/-- The fields of a node are erased one by one. -/
lemma eraseFields_eq_map (kind : Kind) (fs : Fields) :
    eraseFields names kind fs = fs.map fun p => (p.1, eraseField names kind p.1 p.2) := by
  induction fs with
  | nil => rfl
  | cons p fs ih =>
    obtain ⟨name, t⟩ := p
    rw [eraseFields, ih, List.map_cons, eraseField, erase]
    by_cases hbase : isChainBase kind name <;> simp [hbase]

/-- Only the base of an optional chain is erased in a way of its own. -/
lemma eraseField_of_name (kind : Kind) {name : String} (h : name ≠ "base") :
    eraseField names kind name = erase names := by
  funext t
  simp [eraseField, isChainBase, h]

/-- Erasing in a node when a field of it is changed to one that is erased alike. -/
lemma eraseFields_modifyField (kind : Kind) {name : String} (hname : name ≠ "base")
    {f : Tree → Tree} {fs : Fields}
    (h : erase names (f (field name fs)) = erase names (field name fs)) :
    eraseFields names kind (modifyField name f fs) = eraseFields names kind fs := by
  rw [eraseFields_eq_map, eraseFields_eq_map, modifyField]
  refine map_setField ?_
  rw [eraseField_of_name names kind hname, h]

/-! ### Erasure sees through the helpers it erases -/

/-- The call that is put around another one is a call of the helper. -/
lemma helper?_wrapperCall (helper label : String) (t : Tree) :
    (wrapperCall helper label t).helper? = some helper := by
  simp [wrapperCall, argument, reference, stringLiteral, helper?, field, ident?, Ident.ofFields,
    text, natural, items, get, fields, isNull, isStringLiteral]

/-- An initialiser has no part in whether a node is a helper call. -/
lemma helper?_modifyInit (kind : Kind) (f : Tree → Tree) (fs : Fields) :
    (node kind (modifyField "init" f fs)).helper? = (node kind fs).helper? := by
  have hcallee : "callee" ≠ "init" := by decide
  have harguments : "arguments" ≠ "init" := by decide
  cases kind with
  | callExpression =>
    simp only [helper?, field_modifyField_of_ne hcallee, field_modifyField_of_ne harguments]
  | _ => rfl

/-- Erasing a helper call leaves its first argument. -/
lemma erase_wrapperCall {helper : String} (h : names helper) (label : String) (t : Tree) :
    erase names (wrapperCall helper label t) = erase names t := by
  have hshape : isHelperCall names (wrapperCall helper label t) := by
    rw [isHelperCall, helper?_wrapperCall]
    exact h
  have hrecord : isChainBase .record "expression" = false := rfl
  have hfirst : (eraseBelow names (wrapperCall helper label t)).firstArgument =
      if isHelperCall names t && !isChainBase .record "expression" then
        (eraseBelow names t).firstArgument
      else eraseBelow names t := rfl
  rw [erase, if_pos hshape, hfirst, hrecord, Bool.not_false, Bool.and_true, erase]

/-- Erasing does not see helper calls of the erased names. -/
lemma seesThrough_erase {helper : String} (h : names helper) :
    SeesThrough helper (erase names) where
  wrapperCall label t _ := erase_wrapperCall names h label t
  paren f fs hf := by
    have hnone : ∀ gs, (node .parenthesisExpression gs).isHelperCall names = false := fun _ => rfl
    have hname : "expression" ≠ "base" := by decide
    rw [erase, erase, hnone, hnone, eraseBelow, eraseBelow,
      eraseFields_modifyField names _ hname hf]
  init kind f fs hf := by
    have hname : "init" ≠ "base" := by decide
    rw [erase, erase, isHelperCall, isHelperCall, helper?_modifyInit, eraseBelow, eraseBelow,
      eraseFields_modifyField names kind hname hf]
  list ts us hmap := by
    have hnone : ∀ vs, (list vs).isHelperCall names = false := fun _ => rfl
    rw [erase, erase, hnone, hnone, eraseBelow, eraseBelow, eraseList_eq_map, eraseList_eq_map,
      hmap]

/-! ### Erasure undoes wrapping -/

section Rule

variable (wrapper : String) (rule : OwnedCall → List String)

/-- Which calls have the shape of helper calls does not change when calls below them are wrapped. -/
lemma helper?_wrapOwned (t : Tree) : (t.wrapOwned wrapper rule).helper? = t.helper? := by
  cases t with
  | node kind fs =>
    rw [wrapOwned_node]
    cases kind with
    | callExpression =>
      have hcallee : "callee" ∉ slotNames := by decide
      have harguments : "arguments" ∉ slotNames := by decide
      have hspread : "spread" ∉ slotNames := by decide
      have hexpression : "expression" ∉ slotNames := by decide
      simp only [helper?, field_wrapSlots wrapper rule hcallee,
        field_wrapSlots wrapper rule harguments, ident?_wrapOwned, items_wrapOwned]
      obtain - | ⟨name, - | ctxt⟩ := (field "callee" fs).ident?
      · rfl
      · obtain - | ⟨call, - | ⟨label, - | ⟨more, rest⟩⟩⟩ := (field "arguments" fs).items
        · rfl
        · rfl
        · simp only [List.map_cons, List.map_nil, get_wrapOwned wrapper rule hspread,
            get_wrapOwned wrapper rule hexpression, readsRoot_isNull.wrapOwned,
            readsRoot_isStringLiteral.wrapOwned]
        · rfl
      · rfl
    | _ => rfl
  | list ts => rw [wrapOwned_list]; rfl
  | _ => rfl

/-- A node is a helper call after wrapping exactly if it was one. -/
lemma isHelperCall_wrapOwned (t : Tree) :
    (t.wrapOwned wrapper rule).isHelperCall names = t.isHelperCall names := by
  rw [isHelperCall, isHelperCall, helper?_wrapOwned]

variable {wrapper}

/-- Erasing below a tree after wrapping its owned calls. -/
lemma eraseBelow_wrapOwned (h : names wrapper) (t : Tree) :
    eraseBelow names (t.wrapOwned wrapper rule) = eraseBelow names t := by
  have herase : ∀ t : Tree, eraseBelow names (t.wrapOwned wrapper rule) = eraseBelow names t →
      erase names (t.wrapOwned wrapper rule) = erase names t := by
    intro t ht
    rw [erase, erase, isHelperCall_wrapOwned, ht]
  induction t using partsInduction with
  | null | bool b | num m d | str s => rfl
  | list ts ih =>
    rw [wrapOwned_list, eraseBelow, eraseBelow, eraseList_eq_map, eraseList_eq_map, List.map_map]
    exact congrArg list (List.map_congr_left fun t ht => herase t (ih t ht))
  | node kind fs ih =>
    -- no slot is called `base`, so every call that was wrapped is erased again
    have hslots := (seesThrough_erase names h).map_wrapSlots (h := eraseField names kind)
      (fun name hname => eraseField_of_name names kind (ne_of_mem_of_not_mem hname (by decide)))
      rule kind fs (mapFields (wrapOwned wrapper rule) fs)
    rw [wrapOwned_node, eraseBelow, eraseBelow, eraseFields_eq_map, eraseFields_eq_map, hslots,
      mapFields, List.map_map]
    refine congrArg (node kind) (List.map_congr_left fun p hp => ?_)
    refine congrArg (Prod.mk p.1) ?_
    show eraseField names kind p.1 (p.2.wrapOwned wrapper rule) = eraseField names kind p.1 p.2
    rw [eraseField, eraseField, ih p hp, herase p.2 (ih p hp)]

/-- Erasure undoes the wrapping of owned calls. -/
theorem erase_wrapOwned (h : names wrapper) (t : Tree) :
    erase names (t.wrapOwned wrapper rule) = erase names t := by
  rw [erase, erase, isHelperCall_wrapOwned, eraseBelow_wrapOwned names rule h]

end Rule

/-! ### Trees without helper calls -/

/-- The helper calls of a list are those of its trees, one tree after the other. -/
lemma helperCallsOfList_eq_flatten (ts : List Tree) :
    helperCallsOfList names ts = (ts.map (helperCalls names)).flatten := by
  induction ts with
  | nil => rfl
  | cons t ts ih => rw [helperCallsOfList, ih, List.map_cons, List.flatten_cons, helperCalls]

/-- The helper calls of fields are those of their trees, one field after the other. -/
lemma helperCallsOfFields_eq_flatten (kind : Kind) (fs : Fields) :
    helperCallsOfFields names kind fs = (fs.map fun p =>
      (if isHelperCall names p.2 && !isChainBase kind p.1 then [p.2] else []) ++
        helperCallsBelow names p.2).flatten := by
  induction fs with
  | nil => rfl
  | cons p fs ih =>
    obtain ⟨name, t⟩ := p
    rw [helperCallsOfFields, ih, List.map_cons, List.flatten_cons]

/-- If there is no helper call in a tree, it is none itself. -/
lemma erase_eq_eraseBelow {t : Tree} (h : helperCalls names t = []) :
    erase names t = eraseBelow names t := by
  have hcalls := List.append_eq_nil_iff.mp h
  have hshape : ¬ isHelperCall names t := fun hs => by simp [hs] at hcalls
  rw [erase, if_neg hshape]

/-- Erasure changes nothing below a tree that has no helper calls below it. -/
lemma eraseBelow_eq_self {t : Tree} (h : helperCallsBelow names t = []) :
    eraseBelow names t = t := by
  induction t using partsInduction with
  | null | bool b | num m d | str s => rfl
  | list ts ih =>
    rw [helperCallsBelow, helperCallsOfList_eq_flatten, List.flatten_eq_nil_iff] at h
    rw [eraseBelow, eraseList_eq_map]
    refine congrArg list ((List.map_congr_left fun t ht => ?_).trans (List.map_id' ts))
    have hcalls : helperCalls names t = [] := h _ (List.mem_map_of_mem ht)
    rw [erase_eq_eraseBelow names hcalls, ih t ht (List.append_eq_nil_iff.mp hcalls).2]
  | node kind fs ih =>
    rw [helperCallsBelow, helperCallsOfFields_eq_flatten, List.flatten_eq_nil_iff] at h
    rw [eraseBelow, eraseFields_eq_map]
    refine congrArg (node kind) ((List.map_congr_left fun p hp => ?_).trans (List.map_id' fs))
    have hcalls := h _ (List.mem_map_of_mem hp)
    have hbelow := ih p hp (List.append_eq_nil_iff.mp hcalls).2
    rw [eraseField]
    split
    · rw [hbelow]
    · rename_i hbase
      have hnone : helperCalls names p.2 = [] := by simpa [helperCalls, hbase] using hcalls
      rw [erase_eq_eraseBelow names hnone, hbelow]

/-- Erasure changes nothing in a tree without helper calls. -/
theorem erase_eq_self {t : Tree} (h : helperCalls names t = []) : erase names t = t := by
  rw [erase_eq_eraseBelow names h, eraseBelow_eq_self names (List.append_eq_nil_iff.mp h).2]

end Names

end Tree

end HookLabel
