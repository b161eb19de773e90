import HookLabel.Proofs.Contexts

/-!
# Wrapping and the parts of a tree

Two facts about wrapping a call in a slot of a node, on which all results about whole trees rest.

A change of trees that leaves helper calls around what becomes of the calls in them commutes with
wrapping in a slot (`CommutesWithWrapping`).  `wrapOwned` is such a change (`mapFields_wrapSlots`):
helper calls own nothing, and what a declarator owns itself is not its initialiser.

A reading that sees through helper calls says the same of each field before and after
(`SeesThrough.map_wrapSlots`); listing the owned calls of a tree is such a reading.
-/

namespace HookLabel

namespace Tree

/-! ### Changes that commute with wrapping -/

/-- A change of trees that keeps how they read and commutes with wrapping a call: it leaves the call
of the helper around what becomes of the call in it, and where the expression in parentheses or the
initialiser of a declarator is changed, it does not matter which change is made first. -/
structure CommutesWithWrapping (helper : String) (F : Tree → Tree) (G : Kind → Fields → Fields)
    (ι : Ident → Ident) : Prop extends KeepsReadings F G ι where
  wrapperCall : ∀ label t, F (wrapperCall helper label t) = wrapperCall helper label (F t)
  paren : ∀ (f : Tree → Tree) (fs : Fields),
    F (f (field "expression" fs)) = f (F (field "expression" fs)) →
      G .parenthesisExpression (modifyField "expression" f fs) =
        modifyField "expression" f (G .parenthesisExpression fs)
  init : ∀ (kind : Kind) (f : Tree → Tree) (fs : Fields),
    F (f (field "init" fs)) = f (F (field "init" fs)) →
      G kind (modifyField "init" f fs) = modifyField "init" f (G kind fs)

namespace CommutesWithWrapping

variable {helper : String} {F : Tree → Tree} {G : Kind → Fields → Fields} {ι : Ident → Ident}
  (hF : CommutesWithWrapping helper F G ι)

include hF

/-- The change may be made before a call is wrapped or after. -/
lemma wrapCall (label : String) (t : Tree) :
    F (t.wrapCall helper label) = (F t).wrapCall helper label := by
  fun_induction Tree.unparenthesized t with
  | case1 fs ih => rw [wrapCall_paren, hF.node, hF.node, wrapCall_paren, hF.paren _ _ ih]
  | case2 t ht =>
    have hcallee : (F t).callee?.isSome = t.callee?.isSome := by rw [hF.callee?, Option.isSome_map]
    rw [wrapCall_of_ne_paren _ _ ht, wrapCall_of_ne_paren _ _ (hF.ne_paren ht), hcallee]
    split
    · exact hF.wrapperCall label t
    · rfl

/-- The change may be made before a call is wrapped in several labels or after. -/
lemma wrapCalls (labels : List String) (t : Tree) :
    F (t.wrapCalls helper labels) = (F t).wrapCalls helper labels := by
  induction labels generalizing t with
  | nil => rfl
  | cons label labels ih =>
    rw [Tree.wrapCalls, Tree.wrapCalls, List.foldl_cons, List.foldl_cons, ← Tree.wrapCalls,
      ← Tree.wrapCalls, ih, hF.wrapCall]

/-- Wrapping the initialiser of a declarator, whatever kind of node stands there. -/
lemma modifyInit (labels : List String) (d : Tree) :
    F (d.modifyInit (Tree.wrapCalls helper labels)) =
      (F d).modifyInit (Tree.wrapCalls helper labels) := by
  cases d with
  | node kind fs =>
    rw [Tree.modifyInit, hF.node, hF.node, Tree.modifyInit, hF.init _ _ _ (hF.wrapCalls ..)]
  | list ts => rw [hF.list]; exact hF.list ts
  | _ => exact (hF.leaf _ rfl).trans (congrArg (Tree.modifyInit _) (hF.leaf _ rfl).symm)

variable {given : OwnedCall → List String}

/-- The change may be made before initialisers are wrapped or after. -/
lemma map_wrapInits (before es : List Tree) :
    (wrapInits helper given before es).map F = wrapInits helper given before (es.map F) := by
  induction es generalizing before with
  | nil => cases before <;> rfl
  | cons e es ih =>
    cases before with
    | nil => rfl
    | cons d ds => rw [wrapInits, List.map_cons, List.map_cons, wrapInits, hF.modifyInit, ih]

/-- The change may be made before the slot of an owner is wrapped or after. -/
lemma slotEdit {kind : Kind} {fs : Fields} {name : String} {edit : Tree → Tree}
    (h : slotEdit helper given kind fs = some (name, edit)) (t : Tree) :
    F (edit t) = edit (F t) := by
  rcases slotEdit_cases h with ⟨-, -, rfl⟩ | ⟨-, rfl⟩
  · cases t with
    | list ts => rw [mapItems, hF.list, hF.list, mapItems, hF.map_wrapInits]
    | node k gs => rw [mapItems, hF.node, mapItems] <;> simp
    | _ => exact (hF.leaf _ rfl).trans (congrArg (mapItems _) (hF.leaf _ rfl).symm)
  · exact hF.wrapCalls ..

end CommutesWithWrapping

section Commute

variable (wrapper : String) (rule : OwnedCall → List String)

/-! ### The initialiser is no slot of the declarator -/

/-- The slots of a node do not depend on a field called `init`. -/
lemma slotEdit_modifyInit (kind : Kind) (f : Tree → Tree) (fs : Fields) :
    slotEdit wrapper rule kind (modifyField "init" f fs) = slotEdit wrapper rule kind fs := by
  cases kind <;> simp [slotEdit, Kind.slot?, slotContext, field_modifyField_of_ne]

/-- Nor do the calls that a node owns. -/
lemma slotCalls_modifyInit (kind : Kind) (f : Tree → Tree) (fs : Fields) :
    slotCalls kind (modifyField "init" f fs) = slotCalls kind fs := by
  cases kind <;> simp [slotCalls, Kind.slot?, slotContext, field_modifyField_of_ne]

/-- Wrapping the slots of a node and changing its `init` can be done in either order. -/
lemma wrapSlots_modifyInit (kind : Kind) (f : Tree → Tree) (before fs : Fields) :
    wrapSlots wrapper rule kind (modifyField "init" f before) (modifyField "init" f fs) =
      modifyField "init" f (wrapSlots wrapper rule kind before fs) := by
  unfold wrapSlots
  rw [slotEdit_modifyInit]
  split
  · rename_i name edit he
    have hne : name ≠ "init" := ne_of_mem_of_not_mem (slotEdit_name_mem he) (by decide)
    exact modifyField_comm hne f edit fs
  · rfl

/-! ### Wrapping commutes with `wrapOwned` -/

/-- A helper call owns nothing. -/
lemma wrapOwned_wrapperCall (helper label : String) (call : Tree) :
    (wrapperCall helper label call).wrapOwned wrapper rule =
      wrapperCall helper label (call.wrapOwned wrapper rule) := rfl

/-- Neither does the import of a helper. -/
lemma wrapOwned_wrapperImport (helper source : String) :
    (wrapperImport helper source).wrapOwned wrapper rule = wrapperImport helper source := rfl

/-- Wrapping the owned calls of a tree commutes with wrapping a call in it. -/
lemma commutesWithWrapping_wrapOwned (helper : String) :
    CommutesWithWrapping helper (wrapOwned wrapper rule)
      (fun kind fs => wrapSlots wrapper rule kind fs (mapFields (wrapOwned wrapper rule) fs)) id where
  toKeepsReadings := keepsReadings_wrapOwned wrapper rule
  wrapperCall := wrapOwned_wrapperCall wrapper rule helper
  paren f fs h := by
    rw [wrapSlots_of_not_isOwner rfl, wrapSlots_of_not_isOwner rfl,
      mapFields_modifyField (wrapOwned_null ..) h]
  init kind f fs h := by
    rw [mapFields_modifyField (wrapOwned_null ..) h, wrapSlots_modifyInit]

/-- Wrapping in the slots of a node commutes with `wrapOwned` on its fields, as long as the slots
are those of the same fields before. -/
theorem mapFields_wrapSlots (helper : String) (given : OwnedCall → List String) (kind : Kind)
    (before fs : Fields) :
    mapFields (wrapOwned wrapper rule) (wrapSlots helper given kind before fs) =
      wrapSlots helper given kind before (mapFields (wrapOwned wrapper rule) fs) := by
  unfold wrapSlots
  split
  · rename_i name edit he
    have hedit := (commutesWithWrapping_wrapOwned wrapper rule helper).slotEdit he
      (field name fs)
    exact mapFields_modifyField (wrapOwned_null ..) hedit
  · rfl

end Commute

/-! ### Readings that see through helper calls -/

/-- A reading of a tree that sees through the calls of a helper: it says the same of a helper call
as of the call in it, and what it says of parentheses, of a declarator and of a list depends on
what it says of their parts. -/
structure SeesThrough (helper : String) {β : Type} (g : Tree → β) : Prop where
  wrapperCall : ∀ (label : String) (t : Tree), t.callee?.isSome →
    g (wrapperCall helper label t) = g t
  paren : ∀ (f : Tree → Tree) (fs : Fields), g (f (field "expression" fs)) =
    g (field "expression" fs) → g (node .parenthesisExpression (modifyField "expression" f fs)) =
      g (node .parenthesisExpression fs)
  init : ∀ (kind : Kind) (f : Tree → Tree) (fs : Fields), g (f (field "init" fs)) =
    g (field "init" fs) → g (node kind (modifyField "init" f fs)) = g (node kind fs)
  list : ∀ ts us : List Tree, ts.map g = us.map g → g (list ts) = g (list us)

namespace SeesThrough

variable {helper : String} {β : Type} {g : Tree → β} (hg : SeesThrough helper g)

include hg

/-- The reading does not see the helper call around a call. -/
lemma wrapCall (label : String) (t : Tree) : g (t.wrapCall helper label) = g t := by
  fun_induction unparenthesized t with
  | case1 fs ih => rw [wrapCall_paren, hg.paren _ _ ih]
  | case2 t ht =>
    rw [wrapCall_of_ne_paren _ _ ht]
    split
    · exact hg.wrapperCall label t ‹_›
    · rfl

/-- The reading sees none of several helper calls. -/
lemma wrapCalls (labels : List String) (t : Tree) :
    g (t.wrapCalls helper labels) = g t :=
  wrapCalls_congr hg.wrapCall labels t

/-- The reading does not see helper calls in initialisers. -/
lemma map_wrapInits (given : OwnedCall → List String) (before es : List Tree) :
    (wrapInits helper given before es).map g = es.map g := by
  induction es generalizing before with
  | nil => cases before <;> rfl
  | cons e es ih =>
    cases before with
    | nil => rfl
    | cons d ds =>
      rw [wrapInits, List.map_cons, List.map_cons, ih]
      congr 1
      cases e with
      | node kind fs => exact hg.init kind _ fs (hg.wrapCalls ..)
      | _ => rfl

/-- The reading does not see a helper call in the slot of an owner. -/
lemma slotEdit {given : OwnedCall → List String} {kind : Kind} {fs : Fields}
    {name : String} {edit : Tree → Tree} (h : slotEdit helper given kind fs = some (name, edit))
    (t : Tree) : g (edit t) = g t := by
  rcases slotEdit_cases h with ⟨-, -, rfl⟩ | ⟨-, rfl⟩
  · cases t with
    | list ts => exact hg.list _ _ (hg.map_wrapInits ..)
    | _ => rfl
  · exact hg.wrapCalls ..

/-- What is said of the fields of a node does not change when its slots are wrapped, if it is said
of the slots by a reading that sees through helper calls. -/
theorem map_wrapSlots {h : String → Tree → β} (hslot : ∀ name ∈ slotNames, h name = g)
    (given : OwnedCall → List String) (kind : Kind) (before fs : Fields) :
    ((wrapSlots helper given kind before fs).map fun p => (p.1, h p.1 p.2)) =
      fs.map fun p => (p.1, h p.1 p.2) := by
  unfold wrapSlots
  split
  · rename_i name edit he
    refine map_setField ?_
    rw [hslot name (slotEdit_name_mem he)]
    exact hg.slotEdit he _
  · rfl

end SeesThrough

/-! ### Listing the owned calls -/

/-- The owned calls of a list are those of its trees, one tree after the other. -/
lemma ownedCallsOfList_eq (ts : List Tree) : ownedCallsOfList ts = (ts.map ownedCalls).flatten := by
  induction ts with
  | nil => rfl
  | cons t ts ih => rw [ownedCallsOfList, ih, List.map_cons, List.flatten_cons]

/-- The owned calls of fields are those of their trees, one field after the other. -/
lemma ownedCallsOfFields_eq (fs : Fields) :
    ownedCallsOfFields fs = ((fs.map fun p => (p.1, p.2.ownedCalls)).map (·.2)).flatten := by
  induction fs with
  | nil => rfl
  | cons p fs ih =>
    obtain ⟨n, t⟩ := p
    rw [ownedCallsOfFields, ih]
    rfl

/-- A helper call owns nothing itself, so that the calls owned in it are those owned in its
argument. -/
lemma seesThrough_ownedCalls (helper : String) : SeesThrough helper ownedCalls where
  wrapperCall label t _ := by
    simp [wrapperCall, argument, reference, stringLiteral, ownedCalls, ownedCallsOfFields,
      ownedCallsOfList, slotCalls, Kind.slot?]
  paren f fs h := by
    have hmap := map_setField (g := fun _ => ownedCalls) h
    simp only [ownedCalls, ownedCallsOfFields_eq, modifyField, hmap]
    rfl
  init kind f fs h := by
    have hmap := map_setField (g := fun _ => ownedCalls) h
    rw [ownedCalls, ownedCalls, slotCalls_modifyInit, ownedCallsOfFields_eq, ownedCallsOfFields_eq,
      modifyField, hmap]
  list ts us h := by
    rw [ownedCalls, ownedCalls, ownedCallsOfList_eq, ownedCallsOfList_eq, h]

end Tree

end HookLabel
