import HookLabel.Proofs.Wrapping

/-!
# Passes one after the other

`wrapOwned` keeps the owned calls of a tree in their places (`ownedCalls_wrapOwned`): those it has
wrapped call the helper now, and no context has changed.  Hence two passes with the same helper are
one pass (`wrapOwned_wrapOwned`), in which every owned call has the labels of the first pass and
around them those that the second pass gives to what it finds there.  A pass depends on its rule at
the owned calls of the tree only (`wrapOwned_congr`), and one that labels none of them changes
nothing (`wrapOwned_eq_self`).
-/

namespace HookLabel

/-- What becomes of an owned call when it is wrapped with the labels of a rule: if there are any,
it calls the helper. -/
def OwnedCall.wrapped (wrapper : String) (rule : OwnedCall → List String) (c : OwnedCall) :
    OwnedCall :=
  if rule c = [] then c else { c with callee := ⟨wrapper, 0⟩ }

/-- The labels of one pass, and around them those of a later pass with the same helper. -/
def labelsThen (wrapper : String) (first later : OwnedCall → List String) (c : OwnedCall) :
    List String :=
  first c ++ later (c.wrapped wrapper first)

namespace Tree

section Slots

variable (wrapper : String) (rule later : OwnedCall → List String)

/-! ### One slot -/

/-- Parentheses stay, so what is under them is wrapped. -/
lemma unparenthesized_wrapOwned (t : Tree) :
    (t.wrapOwned wrapper rule).unparenthesized = t.unparenthesized.wrapOwned wrapper rule :=
  (keepsReadings_wrapOwned wrapper rule).unparenthesized t

/-- An expression is the same owned call when the calls below it are wrapped. -/
lemma ownedCall?_wrapOwned (context : BindingContext) (t : Tree) :
    (t.wrapOwned wrapper rule).ownedCall? context = t.ownedCall? context := by
  rw [ownedCall?, ownedCall?, unparenthesized_wrapOwned, callee?_wrapOwned]

/-- The owned call in a slot after a pass. -/
lemma ownedCall?_slot (context : BindingContext) (t : Tree) :
    ((t.wrapOwned wrapper rule).wrapCalls wrapper (labelsOf rule context t)).ownedCall? context =
      (t.ownedCall? context).map (OwnedCall.wrapped wrapper rule) := by
  rw [ownedCall?_wrapCalls, ownedCall?_wrapOwned]
  refine Option.map_congr fun c hc => ?_
  have hlabels : labelsOf rule context t = rule c := by
    rw [labelsOf, Option.mem_def.mp hc]
    rfl
  rw [hlabels, OwnedCall.wrapped]

/-- The labels that a later pass gives to what a first pass has left in a slot come around those of
the first pass. -/
lemma wrapCalls_slot (context : BindingContext) (t u : Tree) :
    (u.wrapCalls wrapper (labelsOf rule context t)).wrapCalls wrapper (labelsOf later context
        ((t.wrapOwned wrapper rule).wrapCalls wrapper (labelsOf rule context t))) =
      u.wrapCalls wrapper (labelsOf (labelsThen wrapper rule later) context t) := by
  have hlater : labelsOf later context
      ((t.wrapOwned wrapper rule).wrapCalls wrapper (labelsOf rule context t)) =
        ((t.ownedCall? context).map fun c => later (c.wrapped wrapper rule)).getD [] := by
    rw [labelsOf, ownedCall?_slot, Option.map_map]
    rfl
  rw [← wrapCalls_append, hlater, labelsOf, labelsOf]
  congr 1
  cases t.ownedCall? context <;> rfl

/-! ### The slots of one node -/

/-- Editing the initialiser of a declarator edits what is read as it. -/
lemma get_init_modifyInit {f : Tree → Tree} (h : f null = null) (d : Tree) :
    (d.modifyInit f).get "init" = f (d.get "init") := by
  cases d with
  | node kind fs => exact field_modifyField h "init" fs
  | _ => exact h.symm

/-- The initialiser of a declarator is wrapped below; it is no slot of the declarator itself. -/
lemma get_init_wrapOwned (d : Tree) :
    (d.wrapOwned wrapper rule).get "init" = (d.get "init").wrapOwned wrapper rule := by
  have hinit : "init" ∉ slotNames := by decide
  exact get_wrapOwned wrapper rule hinit d

/-- A declarator reads as before after a pass. -/
lemma declarator_modifyInit_wrapOwned (labels : List String) (d : Tree) :
    ((d.wrapOwned wrapper rule).modifyInit (wrapCalls wrapper labels)).declarator =
      d.declarator := by
  rw [declarator_modifyInit, declarator_wrapOwned]

/-- The initialiser of a declarator after a pass. -/
lemma get_init_modifyInit_wrapOwned (labels : List String) (d : Tree) :
    ((d.wrapOwned wrapper rule).modifyInit (wrapCalls wrapper labels)).get "init" =
      ((d.get "init").wrapOwned wrapper rule).wrapCalls wrapper labels := by
  rw [get_init_modifyInit (wrapCalls_null ..), get_init_wrapOwned]

/-- The declarators of a declaration after a pass. -/
def initsAfter (ds : List Tree) : List Tree :=
  wrapInits wrapper rule ds (ds.map (wrapOwned wrapper rule))

/-- The first declarator is wrapped with a view to those behind it, and these are wrapped in turn.
-/
lemma initsAfter_cons (d : Tree) (ds : List Tree) :
    initsAfter wrapper rule (d :: ds) =
      (d.wrapOwned wrapper rule).modifyInit (wrapCalls wrapper (labelsOf rule
        (.ofDeclarator d.declarator (ds.map declarator)) (d.get "init"))) ::
        initsAfter wrapper rule ds := rfl

/-- A pass changes neither how the declarators read nor, hence, the context of any of them. -/
lemma map_declarator_initsAfter (ds : List Tree) :
    (initsAfter wrapper rule ds).map declarator = ds.map declarator := by
  rw [initsAfter, map_declarator_wrapInits, List.map_map]
  exact List.map_congr_left fun d _ => declarator_wrapOwned wrapper rule d

/-- The declarators of a wrapped declaration. -/
lemma items_declarations_wrapSlots (fs : Fields) :
    (field "declarations" (wrapSlots wrapper rule .variableDeclaration fs
      (mapFields (wrapOwned wrapper rule) fs))).items =
      initsAfter wrapper rule (field "declarations" fs).items := by
  rw [wrapSlots, slotEdit]
  rw [field_modifyField rfl, field_mapFields (wrapOwned_null ..), initsAfter]
  cases field "declarations" fs with
  | list ts => rw [wrapOwned_list]; rfl
  | node kind gs => rw [wrapOwned_node]; rfl
  | _ => rfl

/-- The calls of initialisers stay in their places, each wrapped in its labels. -/
lemma initCalls_initsAfter (ds : List Tree) :
    initCalls (initsAfter wrapper rule ds) =
      (initCalls ds).map (OwnedCall.wrapped wrapper rule) := by
  induction ds with
  | nil => rfl
  | cons d ds ih =>
    have hcall := ownedCall?_slot wrapper rule (.ofDeclarator d.declarator (ds.map declarator))
      (d.get "init")
    rw [initsAfter_cons, initCalls, initCalls, declarator_modifyInit_wrapOwned,
      map_declarator_initsAfter, get_init_modifyInit_wrapOwned, hcall, ih, List.map_append]
    cases (d.get "init").ownedCall? _ <;> rfl

/-- Wrapping initialisers by one rule and then by another is wrapping them by both in turn. -/
lemma wrapInits_initsAfter (ds es : List Tree) :
    wrapInits wrapper later (initsAfter wrapper rule ds) (wrapInits wrapper rule ds es) =
      wrapInits wrapper (labelsThen wrapper rule later) ds es := by
  induction ds generalizing es with
  | nil => cases es <;> rfl
  | cons d ds ih =>
    cases es with
    | nil => rfl
    | cons e es =>
      rw [initsAfter_cons, wrapInits, wrapInits, wrapInits, ih, declarator_modifyInit_wrapOwned,
        map_declarator_initsAfter, get_init_modifyInit_wrapOwned]
      -- the labels of the later pass are read off the declarators as the first pass has left them
      congr 1
      cases e with
      | node kind fs =>
        rw [modifyInit, modifyInit, modifyInit, modifyField_modifyField (wrapCalls_null ..)]
        congr 2
        funext u
        exact wrapCalls_slot ..
      | _ => rfl

/-- The calls that a node owns after a pass. -/
lemma slotCalls_wrapSlots (kind : Kind) (fs : Fields) :
    slotCalls kind (wrapSlots wrapper rule kind fs (mapFields (wrapOwned wrapper rule) fs)) =
      (slotCalls kind fs).map (OwnedCall.wrapped wrapper rule) := by
  by_cases hkind : kind = .variableDeclaration
  · subst hkind
    rw [slotCalls, slotCalls, items_declarations_wrapSlots, initCalls_initsAfter]
  · rw [slotCalls_of_ne_declaration hkind, slotCalls_of_ne_declaration hkind, slotContext_wrapSlots]
    cases hslot : kind.slot? with
    | none => rfl
    | some name =>
      simp only [wrapSlots, slotEdit_of_ne_declaration wrapper rule hkind, hslot, Option.map_some]
      rw [field_modifyField (wrapCalls_null ..), field_mapFields (wrapOwned_null ..),
        ownedCall?_slot]
      cases (field name fs).ownedCall? _ <;> rfl

/-- Wrapping the slots of a node by a first pass and then by a later one. -/
lemma wrapSlots_wrapSlots (kind : Kind) (before fs : Fields) :
    wrapSlots wrapper later kind
        (wrapSlots wrapper rule kind before (mapFields (wrapOwned wrapper rule) before))
        (wrapSlots wrapper rule kind before fs) =
      wrapSlots wrapper (labelsThen wrapper rule later) kind before fs := by
  by_cases hkind : kind = .variableDeclaration
  · subst hkind
    have hitems := items_declarations_wrapSlots wrapper rule before
    simp only [wrapSlots, slotEdit] at hitems ⊢
    rw [hitems, modifyField_modifyField rfl]
    congr 1
    funext t
    cases t with
    | list ts => exact congrArg list (wrapInits_initsAfter ..)
    | _ => rfl
  · have hcontext := slotContext_wrapSlots wrapper rule kind before
    simp only [wrapSlots, slotEdit_of_ne_declaration wrapper _ hkind] at hcontext ⊢
    rw [hcontext]
    cases kind.slot? with
    | none => rfl
    | some name =>
      simp only [Option.map_some]
      rw [modifyField_modifyField (wrapCalls_null ..), field_modifyField (wrapCalls_null ..),
        field_mapFields (wrapOwned_null ..)]
      congr 1
      funext t
      exact wrapCalls_slot ..

/-! ### Whole trees -/

/-- A pass keeps the owned calls of a tree in their places. -/
theorem ownedCalls_wrapOwned (t : Tree) :
    (t.wrapOwned wrapper rule).ownedCalls =
      t.ownedCalls.map (OwnedCall.wrapped wrapper rule) := by
  induction t using partsInduction with
  | null | bool b | num m d | str s => rfl
  | list ts ih =>
    rw [wrapOwned_list, ownedCalls, ownedCalls, ownedCallsOfList_eq, ownedCallsOfList_eq,
      List.map_map, List.map_flatten, List.map_map]
    exact congrArg List.flatten (List.map_congr_left ih)
  | node kind fs ih =>
    have hbelow : ownedCallsOfFields (mapFields (wrapOwned wrapper rule) fs) =
        (ownedCallsOfFields fs).map (OwnedCall.wrapped wrapper rule) := by
      rw [ownedCallsOfFields_eq, ownedCallsOfFields_eq, List.map_flatten]
      simp only [mapFields, List.map_map]
      exact congrArg List.flatten (List.map_congr_left fun p hp => ih p hp)
    have hslots : ownedCallsOfFields (wrapSlots wrapper rule kind fs
        (mapFields (wrapOwned wrapper rule) fs)) =
        ownedCallsOfFields (mapFields (wrapOwned wrapper rule) fs) := by
      rw [ownedCallsOfFields_eq, ownedCallsOfFields_eq,
        (seesThrough_ownedCalls wrapper).map_wrapSlots fun _ _ => rfl]
    rw [wrapOwned_node, ownedCalls, ownedCalls, List.map_append, slotCalls_wrapSlots, hslots,
      hbelow]

/-- So it does in the trees of a list. -/
lemma ownedCallsOfList_map_wrapOwned (ts : List Tree) :
    ownedCallsOfList (ts.map (wrapOwned wrapper rule)) =
      (ownedCallsOfList ts).map (OwnedCall.wrapped wrapper rule) := by
  have hlist := ownedCalls_wrapOwned wrapper rule (list ts)
  rwa [wrapOwned_list, ownedCalls, ownedCalls] at hlist

/-- Two passes with the same helper are one. -/
theorem wrapOwned_wrapOwned (t : Tree) :
    (t.wrapOwned wrapper rule).wrapOwned wrapper later =
      t.wrapOwned wrapper (labelsThen wrapper rule later) := by
  induction t using partsInduction with
  | null | bool b | num m d | str s => rfl
  | list ts ih =>
    rw [wrapOwned_list, wrapOwned_list, wrapOwned_list, List.map_map]
    exact congrArg list (List.map_congr_left ih)
  | node kind fs ih =>
    have hfields : mapFields (wrapOwned wrapper later) (mapFields (wrapOwned wrapper rule) fs) =
        mapFields (wrapOwned wrapper (labelsThen wrapper rule later)) fs := by
      simp only [mapFields, List.map_map]
      exact List.map_congr_left fun p hp => congrArg (Prod.mk p.1) (ih p hp)
    rw [wrapOwned_node, wrapOwned_node, mapFields_wrapSlots, hfields, wrapSlots_wrapSlots,
      wrapOwned_node]

/-- So they are on the trees of a list. -/
lemma map_wrapOwned_wrapOwned (ts : List Tree) :
    (ts.map (wrapOwned wrapper rule)).map (wrapOwned wrapper later) =
      ts.map (wrapOwned wrapper (labelsThen wrapper rule later)) := by
  rw [List.map_map]
  exact List.map_congr_left fun t _ => wrapOwned_wrapOwned wrapper rule later t

end Slots

/-! ### Rules that agree on the owned calls -/

section Congr

variable {wrapper : String} {rule rule' : OwnedCall → List String}

/-- Rules that agree on a call give it the same labels. -/
lemma labelsOf_congr {context : BindingContext} {t : Tree}
    (h : ∀ c ∈ (t.ownedCall? context).toList, rule c = rule' c) :
    labelsOf rule context t = labelsOf rule' context t := by
  unfold labelsOf
  cases hc : t.ownedCall? context with
  | none => rfl
  | some c => exact h c (by rw [hc]; exact List.mem_singleton.mpr rfl)

/-- Rules that agree on the calls of initialisers wrap these alike. -/
lemma wrapInits_congr {ds : List Tree} (h : ∀ c ∈ initCalls ds, rule c = rule' c)
    (es : List Tree) : wrapInits wrapper rule ds es = wrapInits wrapper rule' ds es := by
  induction ds generalizing es with
  | nil => cases es <;> rfl
  | cons d ds ih =>
    cases es with
    | nil => rfl
    | cons e es =>
      rw [initCalls] at h
      rw [wrapInits, wrapInits, ih fun c hc => h c (List.mem_append_right _ hc),
        labelsOf_congr fun c hc => h c (List.mem_append_left _ hc)]

/-- Rules that agree on the calls in the slots of a node wrap these alike. -/
lemma wrapSlots_congr {kind : Kind} {before : Fields}
    (h : ∀ c ∈ slotCalls kind before, rule c = rule' c) (fs : Fields) :
    wrapSlots wrapper rule kind before fs = wrapSlots wrapper rule' kind before fs := by
  by_cases hkind : kind = .variableDeclaration
  · subst hkind
    have hinits : wrapInits wrapper rule (field "declarations" before).items =
        wrapInits wrapper rule' (field "declarations" before).items :=
      funext (wrapInits_congr h)
    rw [wrapSlots, wrapSlots, slotEdit, slotEdit, hinits]
  · rw [slotCalls_of_ne_declaration hkind] at h
    rw [wrapSlots, wrapSlots, slotEdit_of_ne_declaration _ _ hkind,
      slotEdit_of_ne_declaration _ _ hkind]
    cases hslot : kind.slot? with
    | none => rfl
    | some name =>
      rw [hslot] at h
      simp only [Option.map_some]
      rw [labelsOf_congr h]

/-- A pass depends on its rule at the owned calls of the tree only. -/
theorem wrapOwned_congr {t : Tree} (h : ∀ c ∈ t.ownedCalls, rule c = rule' c) :
    t.wrapOwned wrapper rule = t.wrapOwned wrapper rule' := by
  induction t using partsInduction with
  | null | bool b | num m d | str s => rfl
  | list ts ih =>
    rw [ownedCalls, ownedCallsOfList_eq] at h
    rw [wrapOwned_list, wrapOwned_list]
    refine congrArg list (List.map_congr_left fun t ht => ih t ht fun c hc => h c ?_)
    exact List.mem_flatten.mpr ⟨_, List.mem_map_of_mem ht, hc⟩
  | node kind fs ih =>
    rw [ownedCalls, ownedCallsOfFields_eq, List.map_map] at h
    have hfields : mapFields (wrapOwned wrapper rule) fs =
        mapFields (wrapOwned wrapper rule') fs := by
      refine List.map_congr_left fun p hp => congrArg (Prod.mk p.1) (ih p hp fun c hc => h c ?_)
      exact List.mem_append_right _ (List.mem_flatten.mpr ⟨_, List.mem_map_of_mem hp, hc⟩)
    rw [wrapOwned_node, wrapOwned_node, hfields,
      wrapSlots_congr fun c hc => h c (List.mem_append_left _ hc)]

/-- The rule without labels gives none. -/
lemma labelsOf_nil (context : BindingContext) (t : Tree) :
    labelsOf (fun _ => []) context t = [] := by
  unfold labelsOf
  cases t.ownedCall? context <;> rfl

/-- The rule without labels leaves initialisers as they are. -/
lemma wrapInits_nil (before es : List Tree) : wrapInits wrapper (fun _ => []) before es = es := by
  induction es generalizing before with
  | nil => cases before <;> rfl
  | cons e es ih =>
    cases before with
    | nil => rfl
    | cons d ds =>
      rw [wrapInits, labelsOf_nil, ih]
      congr 1
      cases e with
      | node kind fs => exact congrArg (node kind) (setField_field "init" fs)
      | _ => rfl

/-- A pass that labels none of the owned calls of a tree changes nothing. -/
theorem wrapOwned_eq_self {t : Tree} (h : ∀ c ∈ t.ownedCalls, rule c = []) :
    t.wrapOwned wrapper rule = t := by
  rw [wrapOwned_congr h]
  clear h
  induction t using partsInduction with
  | null | bool b | num m d | str s => rfl
  | list ts ih => rw [wrapOwned_list, List.map_congr_left ih, List.map_id']
  | node kind fs ih =>
    rw [wrapOwned_node, mapFields_id ih, wrapSlots]
    congr 1
    split
    · rename_i name edit he
      have hedit : edit (field name fs) = field name fs := by
        rcases slotEdit_cases he with ⟨-, -, rfl⟩ | ⟨-, rfl⟩
        · cases field name fs with
          | list ts => exact congrArg list (wrapInits_nil ..)
          | _ => rfl
        · rw [labelsOf_nil]
          rfl
      rw [modifyField, hedit, setField_field]
    · rfl

/-- Nor does it change the trees of a list if it labels none of their owned calls. -/
lemma map_wrapOwned_eq_self {ts : List Tree} (h : ∀ c ∈ ownedCallsOfList ts, rule c = []) :
    ts.map (wrapOwned wrapper rule) = ts := by
  refine (List.map_congr_left fun t ht => ?_).trans (List.map_id' ts)
  refine wrapOwned_eq_self fun c hc => h c ?_
  rw [ownedCallsOfList_eq]
  exact List.mem_flatten.mpr ⟨_, List.mem_map_of_mem ht, hc⟩

end Congr

end Tree

end HookLabel
