import HookLabel.Proofs.Readings

/-!
# Binding contexts under wrapping

What labelling reads of a tree to decide on a call does not change when other calls are wrapped:
`wrapOwned` keeps the kind of every node, the text of every identifier and the pattern that every
tree reads as, and so the binding context in which every owned expression stands.
-/

namespace HookLabel

namespace Tree

/-! ### Shallow readings -/

/-- Wrapping changes a tree only inside parentheses or to another call. -/
lemma wrapCall_cases (wrapper label : String) (t : Tree) :
    t.wrapCall wrapper label = t ∨
    (∃ fs fs', t = node .parenthesisExpression fs ∧
      t.wrapCall wrapper label = node .parenthesisExpression fs') ∨
    ∃ fs fs', t = node .callExpression fs ∧
      t.wrapCall wrapper label = node .callExpression fs' := by
  by_cases hp : ∃ fs, t = node .parenthesisExpression fs
  · obtain ⟨fs, rfl⟩ := hp
    exact .inr (.inl ⟨fs, _, rfl, wrapCall_paren wrapper label fs⟩)
  · rw [wrapCall_of_ne_paren wrapper label fun fs h => hp ⟨fs, h⟩]
    by_cases hc : t.callee?.isSome
    · rw [if_pos hc]
      unfold callee? at hc
      split at hc
      · exact .inr (.inr ⟨_, _, rfl, rfl⟩)
      · simp at hc
    · exact .inl (if_neg hc)

/-- A reading that wrapping one call does not change is not changed by wrapping it repeatedly. -/
lemma wrapCalls_congr {β : Type} {g : Tree → β} {wrapper : String}
    (h : ∀ label t, g (wrapCall wrapper label t) = g t) (labels : List String) (t : Tree) :
    g (t.wrapCalls wrapper labels) = g t := by
  induction labels generalizing t with
  | nil => rfl
  | cons label labels ih => rw [wrapCalls, List.foldl_cons, ← wrapCalls, ih, h]

/-- Wrapping changes nothing about which temporary's element an expression reads. -/
lemma elementOf?_wrapCalls (wrapper : String) (labels : List String) (t : Tree) :
    (t.wrapCalls wrapper labels).elementOf? = t.elementOf? :=
  wrapCalls_congr (fun label t => by
    rcases wrapCall_cases wrapper label t with h | ⟨fs, fs', rfl, h⟩ | ⟨fs, fs', rfl, h⟩ <;>
      rw [h] <;> rfl) labels t

/-- A wrapped call is a call still. -/
lemma ReadsRoot.wrapCalls {β : Type} {g : Tree → β} (hg : ReadsRoot g) (wrapper : String)
    (labels : List String) (t : Tree) : g (t.wrapCalls wrapper labels) = g t :=
  wrapCalls_congr (fun label t => by
    rcases wrapCall_cases wrapper label t with h | ⟨fs, fs', rfl, h⟩ | ⟨fs, fs', rfl, h⟩
    · rw [h]
    · rw [h, hg.node]
    · rw [h, hg.node]) labels t

section Rule

variable (wrapper : String) (rule : OwnedCall → List String)

/-- A node is wrapped in the slots that it has, and below in all of its fields. -/
lemma wrapOwned_node (kind : Kind) (fs : Fields) :
    (node kind fs).wrapOwned wrapper rule =
      node kind (wrapSlots wrapper rule kind fs (mapFields (wrapOwned wrapper rule) fs)) :=
  rebuild_node _ kind fs

/-- The items of a list are wrapped one by one. -/
lemma wrapOwned_list (ts : List Tree) :
    (list ts).wrapOwned wrapper rule = list (ts.map (wrapOwned wrapper rule)) :=
  rebuild_list _ ts

/-- An absent part stays absent. -/
@[simp] lemma wrapOwned_null : null.wrapOwned wrapper rule = null := rfl

/-- Reading a field after `wrapOwned`, if it is no slot. -/
lemma field_wrapSlots {name : String} (h : name ∉ slotNames) (kind : Kind) (fs : Fields) :
    field name (wrapSlots wrapper rule kind fs (mapFields (wrapOwned wrapper rule) fs)) =
      (field name fs).wrapOwned wrapper rule := by
  unfold wrapSlots
  split
  · rename_i slot edit he
    have hne : name ≠ slot := (ne_of_mem_of_not_mem (slotEdit_name_mem he) h).symm
    rw [field_modifyField_of_ne hne, field_mapFields (wrapOwned_null ..)]
  · exact field_mapFields (wrapOwned_null ..) ..

/-- The root of a tree stays as it is. -/
lemma ReadsRoot.wrapOwned {β : Type} {g : Tree → β} (hg : ReadsRoot g) (t : Tree) :
    g (t.wrapOwned wrapper rule) = g t := by
  cases t with
  | list ts => rw [wrapOwned_list, hg.list]
  | node kind fs => rw [wrapOwned_node, hg.node]
  | _ => rfl

/-! ### Identifiers -/

/-- What a root reading says of a field, slot or not, is what it said. -/
lemma ReadsRoot.field_wrapSlots {β : Type} {g : Tree → β} (hg : ReadsRoot g) (name : String)
    (kind : Kind) (fs : Fields) :
    g (field name (wrapSlots wrapper rule kind fs (mapFields (Tree.wrapOwned wrapper rule) fs))) =
      g (field name fs) := by
  have hmap : g (field name (mapFields (Tree.wrapOwned wrapper rule) fs)) = g (field name fs) := by
    rw [field_mapFields (wrapOwned_null ..), hg.wrapOwned]
  unfold wrapSlots
  split
  · rename_i slot edit he
    by_cases hn : name = slot
    · subst hn
      rw [field_modifyField (slotEdit_null he), ← hmap]
      rcases slotEdit_cases he with ⟨-, -, rfl⟩ | ⟨-, rfl⟩
      · cases field name (mapFields (Tree.wrapOwned wrapper rule) fs) with
        | list ts => exact hg.list ..
        | _ => rfl
      · exact hg.wrapCalls ..
    · rw [field_modifyField_of_ne hn, hmap]
  · exact hmap

/-- The identifier that the fields of a node spell is what it was. -/
lemma ofFields_wrapSlots (kind : Kind) (fs : Fields) :
    Ident.ofFields (wrapSlots wrapper rule kind fs (mapFields (wrapOwned wrapper rule) fs)) =
      Ident.ofFields fs := by
  rw [Ident.ofFields, Ident.ofFields, readsRoot_text.field_wrapSlots,
    readsRoot_natural.field_wrapSlots]

/-- Wrapping the owned calls of a tree keeps how the tree reads, with every identifier as it is. -/
lemma keepsReadings_wrapOwned :
    KeepsReadings (wrapOwned wrapper rule)
      (fun kind fs => wrapSlots wrapper rule kind fs (mapFields (wrapOwned wrapper rule) fs)) id where
  leaf t h := by
    cases t with
    | node kind fs | list ts => cases h
    | _ => rfl
  list := wrapOwned_list wrapper rule
  node := wrapOwned_node wrapper rule
  part kind fs name _ h := by
    rcases h with hslot | howner
    · exact field_wrapSlots wrapper rule hslot kind fs
    · rw [wrapSlots_of_not_isOwner howner, field_mapFields (wrapOwned_null wrapper rule)]
  value hg := hg.field_wrapSlots wrapper rule "value"
  spelled := ofFields_wrapSlots wrapper rule
  unspelled := rfl

/-- The items of a list are wrapped one by one, also where they are read as such. -/
lemma items_wrapOwned (t : Tree) :
    (t.wrapOwned wrapper rule).items = t.items.map (wrapOwned wrapper rule) :=
  (keepsReadings_wrapOwned wrapper rule).items t

/-- Wrapping makes and removes no identifier. -/
lemma ident?_wrapOwned (t : Tree) : (t.wrapOwned wrapper rule).ident? = t.ident? := by
  rw [(keepsReadings_wrapOwned wrapper rule).ident?, Option.map_id_apply]

/-- A call keeps the name that it calls; what is wrapped is a part of it. -/
lemma callee?_wrapOwned (t : Tree) : (t.wrapOwned wrapper rule).callee? = t.callee? := by
  rw [(keepsReadings_wrapOwned wrapper rule).callee?, Option.map_id_apply]

/-! ### Contexts -/

/-- A field that is no slot is wrapped below. -/
lemma get_wrapOwned {name : String} (h : name ∉ slotNames) (t : Tree) :
    (t.wrapOwned wrapper rule).get name = (t.get name).wrapOwned wrapper rule := by
  cases t with
  | node kind fs => rw [wrapOwned_node]; exact field_wrapSlots wrapper rule h kind fs
  | list ts => rw [wrapOwned_list]; rfl
  | _ => rfl

/-- A declarator reads as before, whatever becomes of the calls in it. -/
lemma declarator_wrapOwned (d : Tree) : (d.wrapOwned wrapper rule).declarator = d.declarator := by
  rw [(keepsReadings_wrapOwned wrapper rule).declarator, Declarator.mapIdents_id]

/-- A declarator reads as before when its initialiser is wrapped: a call reads no element. -/
lemma declarator_modifyInit (labels : List String) (d : Tree) :
    (d.modifyInit (wrapCalls wrapper labels)).declarator = d.declarator := by
  cases d with
  | node kind fs =>
    have hid : "id" ≠ "init" := by decide
    simp only [declarator, get, modifyInit, fields, field_modifyField_of_ne hid,
      field_modifyField (wrapCalls_null wrapper labels), elementOf?_wrapCalls]
  | _ => rfl

/-- Neither does wrapping the initialisers of a whole declaration change how its declarators
read. -/
lemma map_declarator_wrapInits (before es : List Tree) :
    (wrapInits wrapper rule before es).map declarator = es.map declarator := by
  induction es generalizing before with
  | nil => cases before <;> rfl
  | cons e es ih =>
    cases before with
    | nil => rfl
    | cons d ds => rw [wrapInits, List.map_cons, List.map_cons, declarator_modifyInit, ih]

/-- The declarators of a declaration read as before. -/
lemma map_declarator_wrapSlots (fs : Fields) :
    (field "declarations" (wrapSlots wrapper rule .variableDeclaration fs
      (mapFields (wrapOwned wrapper rule) fs))).items.map declarator =
    (field "declarations" fs).items.map declarator := by
  have hitems : ∀ t : Tree, (t.mapItems (wrapInits wrapper rule
      (field "declarations" fs).items)).items.map declarator = t.items.map declarator := by
    intro t
    cases t with
    | list ts => exact map_declarator_wrapInits ..
    | _ => rfl
  rw [wrapSlots, slotEdit]
  rw [field_modifyField rfl, hitems, field_mapFields (wrapOwned_null ..), items_wrapOwned,
    List.map_map]
  exact List.map_congr_left fun d _ => declarator_wrapOwned wrapper rule d

/-- The head of a loop reads as before. -/
lemma forHead_wrapOwned (t : Tree) : (t.wrapOwned wrapper rule).forHead = t.forHead := by
  have hid : Declarator.mapIdents id = id := funext Declarator.mapIdents_id
  have hhead := (keepsReadings_wrapOwned wrapper rule).forHead
    (fun fs => by rw [map_declarator_wrapSlots, hid, List.map_id]) t
  rw [hhead, ForHead.mapIdents_id]

/-- The context of what a node owns is read off its fields as before. -/
lemma slotContext_wrapSlots (kind : Kind) (fs : Fields) :
    slotContext kind (wrapSlots wrapper rule kind fs (mapFields (wrapOwned wrapper rule) fs)) =
      slotContext kind fs := by
  refine (keepsReadings_wrapOwned wrapper rule).slotContext (fun _ => rfl) (fun t => ?_) kind fs
  rw [forHead_wrapOwned, ForHead.mapIdents_id]

end Rule

end Tree

end HookLabel
