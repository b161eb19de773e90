import HookLabel.Proofs.ImportOrder
import Mathlib.Logic.Equiv.Basic

/-!
# Renumbering syntax contexts

Scope analysis tells equal names apart by numbering syntax contexts, and nothing depends on which
numbers it takes.  `Tree.rename` renumbers the contexts of a tree by a map `s`.  If `s` keeps the
outermost context `0`, renaming keeps how a tree reads and commutes with wrapping a call, because
the helper is called in the outermost context; if `s` is injective as well, the same siblings read
the elements of a declarator and the same bindings of an import are overwritten.

From this every reading of a module is carried along: the owned calls of a tree
(`ownedCalls_rename`), what it binds (`bindings_rename`), a pass over it (`wrapOwned_rename`) and in
the end the whole run (`Module.run_rename`).
-/

namespace HookLabel

/-- An identifier in the renumbered context. -/
def Ident.rename (s : Nat → Nat) (x : Ident) : Ident := { x with ctxt := s x.ctxt }

/-- An owned call whose callee is in the renumbered context. -/
def OwnedCall.rename (s : Nat → Nat) (c : OwnedCall) : OwnedCall :=
  { c with callee := c.callee.rename s }

/-- Renaming contexts leaves names as they are. -/
@[simp] lemma Ident.name_rename (s : Nat → Nat) (x : Ident) : (x.rename s).name = x.name := rfl

/-- Identifiers that were different stay different if contexts do. -/
lemma Ident.rename_injective {s : Nat → Nat} (hs : Function.Injective s) :
    Function.Injective (Ident.rename s) := by
  rintro ⟨name, ctxt⟩ ⟨name', ctxt'⟩ h
  obtain ⟨hname, hctxt⟩ := Ident.mk.inj h
  rw [Ident.mk.injEq]
  exact ⟨hname, hs hctxt⟩

/-- The outermost context stays the outermost one. -/
lemma Ident.rename_outermost {s : Nat → Nat} (h0 : s 0 = 0) (name : String) :
    Ident.rename s ⟨name, 0⟩ = ⟨name, 0⟩ := by
  rw [Ident.rename, h0]

namespace Tree

section Definitions

variable (s : Nat → Nat)

/-- The number of a context, renumbered. -/
def renameNumber : Tree → Tree
  | num (.ofNat n) 0 => num (s n) 0
  | t => t

/-- The field of the given name, renumbered if it is the context of its node. -/
def renameField (name : String) (t : Tree) : Tree :=
  if name = "ctxt" then t.renameNumber s else t

/-- Renumbers the context among the fields of a node. -/
def renameCtxt (fs : Fields) : Fields := fs.map fun p => (p.1, renameField s p.1 p.2)

/-- Renumbers every context of a tree. -/
def rename : Tree → Tree :=
  rebuild fun kind _ fs => node kind (renameCtxt s fs)

/-- Renumbers every context in the fields of a node, their own and those below. -/
def renameFields (fs : Fields) : Fields := renameCtxt s (mapFields (rename s) fs)

/-- A node is renamed in its fields. -/
lemma rename_node (kind : Kind) (fs : Fields) :
    (node kind fs).rename s = node kind (renameFields s fs) :=
  rebuild_node _ kind fs

/-- The items of a list are renamed one by one. -/
lemma rename_list (ts : List Tree) : (list ts).rename s = list (ts.map (rename s)) :=
  rebuild_list _ ts

/-- An absent part stays absent. -/
@[simp] lemma rename_null : null.rename s = null := rfl

/-! ### The fields of a renamed node -/

/-- Only the field of the syntax context is renamed. -/
lemma renameField_of_ne {name : String} (h : name ≠ "ctxt") (t : Tree) :
    renameField s name t = t := if_neg h

/-- Of the fields only the syntax context reads differently. -/
lemma field_renameCtxt (name : String) (fs : Fields) :
    field name (renameCtxt s fs) = renameField s name (field name fs) := by
  have habsent : renameField s name null = null := by
    unfold renameField
    split <;> rfl
  exact field_map habsent fs

/-- Every field but the context of the node is renamed as a tree of its own. -/
lemma field_renameFields {name : String} (h : name ≠ "ctxt") (fs : Fields) :
    field name (renameFields s fs) = (field name fs).rename s := by
  rw [renameFields, field_renameCtxt, renameField_of_ne s h, field_mapFields (rename_null s)]

/-- A change of a field that commutes with renaming there passes through renaming the fields. -/
lemma renameFields_modifyField {name : String} (h : name ≠ "ctxt") {f : Tree → Tree} {fs : Fields}
    (hcomm : (f (field name fs)).rename s = f ((field name fs).rename s)) :
    renameFields s (modifyField name f fs) = modifyField name f (renameFields s fs) := by
  have hset : ∀ new gs, renameCtxt s (setField name new gs) =
      setField name new (renameCtxt s gs) := by
    intro new gs
    rw [renameCtxt, map_setField_eq, renameField_of_ne s h]
    rfl
  rw [renameFields, mapFields_modifyField (rename_null s) hcomm, modifyField, hset, renameFields,
    modifyField, field_renameCtxt, renameField_of_ne s h]

/-- What says the same of a number of a context and of the renumbered one, says of the renamed
fields what it says of each field renamed as a tree of its own. -/
lemma map_renameFields {β : Type} {g : Tree → β} (hg : ∀ t, g (t.renameNumber s) = g t)
    (fs : Fields) :
    ((renameFields s fs).map fun p => (p.1, g p.2)) = fs.map fun p => (p.1, g (p.2.rename s)) := by
  rw [renameFields, renameCtxt, mapFields, List.map_map, List.map_map]
  refine List.map_congr_left fun p _ => ?_
  simp only [Function.comp_apply, renameField]
  split
  · rw [hg]
  · rfl

/-! ### Renaming keeps how a tree reads -/

/-- What reads as a context reads as the renamed one; a tree that is no number reads as the
outermost. -/
lemma natural_renameNumber (h0 : s 0 = 0) (t : Tree) :
    (t.renameNumber s).natural = s t.natural := by
  unfold renameNumber
  split
  · rfl
  · rename_i hnumber
    have hzero : t.natural = 0 := by
      unfold natural
      split
      · rename_i m
        cases m with
        | ofNat n => exact absurd rfl (hnumber n)
        | negSucc n => rfl
      · rfl
    rw [hzero, h0]

/-- A change that keeps leaves as they are keeps the number of a context. -/
lemma KeepsReadings.renameNumber {F : Tree → Tree} {G : Kind → Fields → Fields}
    {ι : Ident → Ident} (hF : KeepsReadings F G ι) (t : Tree) :
    F (t.renameNumber s) = (F t).renameNumber s := by
  have hroot : ∀ u : Tree, u.isLeaf = false → u.renameNumber s = u := by
    intro u hu
    unfold Tree.renameNumber
    split
    · cases hu
    · rfl
  cases hleaf : t.isLeaf with
  | true =>
    have hnumber : (t.renameNumber s).isLeaf := by
      unfold Tree.renameNumber
      split
      · rfl
      · exact hleaf
    rw [hF.leaf _ hnumber, hF.leaf _ hleaf]
  | false =>
    have hchanged : (F t).isLeaf = false := by
      rw [hF.root readsRoot_isLeaf, hleaf]
    rw [hroot t hleaf, hroot (F t) hchanged]

end Definitions

variable {s : Nat → Nat}

/-- A tree without parts has no context to rename. -/
lemma rename_of_isLeaf {t : Tree} (h : t.isLeaf) : t.rename s = t := by
  cases t with
  | node kind fs | list ts => cases h
  | _ => rfl

/-- The root of a tree stays as it is. -/
lemma ReadsRoot.rename {β : Type} {g : Tree → β} (hg : ReadsRoot g) (t : Tree) :
    g (t.rename s) = g t := by
  cases t with
  | list ts => rw [rename_list, hg.list]
  | node kind fs => rw [rename_node, hg.node]
  | _ => rfl

section Outermost

variable (h0 : s 0 = 0)

include h0

/-- The identifier that the fields of a node spell is renamed. -/
lemma ofFields_renameFields (fs : Fields) :
    Ident.ofFields (renameFields s fs) = (Ident.ofFields fs).rename s := by
  have hvalue : (field "value" (renameFields s fs)).text = (field "value" fs).text := by
    rw [field_renameFields s (by decide), readsRoot_text.rename]
  have hctxt : (field "ctxt" (renameFields s fs)).natural = s (field "ctxt" fs).natural := by
    have hnumber : field "ctxt" (renameFields s fs) =
        (field "ctxt" (mapFields (rename s) fs)).renameNumber s :=
      field_renameCtxt s "ctxt" _
    rw [hnumber, natural_renameNumber s h0, field_mapFields (rename_null s),
      readsRoot_natural.rename]
  rw [Ident.ofFields, Ident.ofFields, Ident.rename, hvalue, hctxt]

/-- Renaming keeps how trees read, up to the contexts of identifiers. -/
lemma keepsReadings_rename :
    KeepsReadings (rename s) (fun _ fs => renameFields s fs) (Ident.rename s) where
  leaf _ h := rename_of_isLeaf h
  list := rename_list s
  node := rename_node s
  part _ fs _ hctxt _ := field_renameFields s hctxt fs
  value hg _ fs := by rw [field_renameFields s (by decide), hg.rename]
  spelled _ fs := ofFields_renameFields h0 fs
  unspelled := Ident.rename_outermost h0 ""

/-- The outermost context stays. -/
lemma renameNumber_zero : (num 0 0).renameNumber s = num 0 0 :=
  congrArg (fun n : Nat => num n 0) h0

/-- A reference that is made by labelling stays, since its context is the outermost one. -/
lemma rename_reference (name : String) : (reference name).rename s = reference name := by
  show node .identifier [("ctxt", (num 0 0).renameNumber s), ("value", str name),
    ("optional", bool false)] = _
  rw [renameNumber_zero h0]
  rfl

/-- The helper is called in the outermost context. -/
lemma rename_wrapperCall (helper label : String) (t : Tree) :
    (wrapperCall helper label t).rename s = wrapperCall helper label (t.rename s) := by
  show node .callExpression [("ctxt", (num 0 0).renameNumber s),
    ("callee", (reference helper).rename s),
    ("arguments", list [argument (t.rename s), argument (stringLiteral label)]),
    ("typeArguments", null)] = _
  rw [renameNumber_zero h0, rename_reference h0]
  rfl

/-- It is imported in the outermost context as well. -/
lemma rename_wrapperImport (helper source : String) :
    (wrapperImport helper source).rename s = wrapperImport helper source := by
  show node .importDeclaration
    [("specifiers", list [node .importSpecifier
        [("local", (reference helper).rename s), ("imported", null), ("isTypeOnly", bool false)]]),
      ("source", stringLiteral source), ("typeOnly", bool false), ("with", null),
      ("phase", str "evaluation")] = _
  rw [rename_reference h0]
  rfl

/-- What labelling puts around a call has no context but the outermost, so it stays. -/
lemma commutesWithWrapping_rename (helper : String) :
    CommutesWithWrapping helper (rename s) (fun _ fs => renameFields s fs) (Ident.rename s) where
  toKeepsReadings := keepsReadings_rename h0
  wrapperCall := rename_wrapperCall h0 helper
  paren _ _ h := renameFields_modifyField s (by decide) h
  init _ _ _ h := renameFields_modifyField s (by decide) h

/-! ### Owned calls -/

/-- An owned call becomes the call of the renamed identifier, in the same binding context. -/
lemma ownedCall?_rename (context : BindingContext) (t : Tree) :
    (t.rename s).ownedCall? context = (t.ownedCall? context).map (OwnedCall.rename s) :=
  (keepsReadings_rename h0).ownedCall? context t

/-- The head of a loop is read as the renamed one. -/
lemma forHead_rename (t : Tree) : (t.rename s).forHead = t.forHead.mapIdents (Ident.rename s) := by
  refine (keepsReadings_rename h0).forHead (fun fs => ?_) t
  rw [field_renameFields s (by decide), (keepsReadings_rename h0).items,
    (keepsReadings_rename h0).map_declarator]

/-- The slot of an owner has the binding context that it had. -/
lemma slotContext_renameFields (kind : Kind) (fs : Fields) :
    slotContext kind (renameFields s fs) = slotContext kind fs :=
  (keepsReadings_rename h0).slotContext (fun _ => rfl) (forHead_rename h0) kind fs

/-- The initialiser of a declarator is renamed with it. -/
lemma get_init_rename (d : Tree) : (d.rename s).get "init" = (d.get "init").rename s :=
  (keepsReadings_rename h0).get (by decide) (by decide) d

section Injective

variable (hs : Function.Injective s)

include hs

/-- A declarator stands in the same context among its renamed siblings. -/
lemma ofDeclarator_rename (d : Tree) (ds : List Tree) :
    BindingContext.ofDeclarator (d.rename s).declarator ((ds.map (rename s)).map declarator) =
      .ofDeclarator d.declarator (ds.map declarator) := by
  rw [(keepsReadings_rename h0).declarator, (keepsReadings_rename h0).map_declarator]
  exact BindingContext.ofDeclarator_mapIdents (Ident.name_rename s) (Ident.rename_injective hs) ..

/-- The calls of initialisers are those of the renamed ones, each with its binding context. -/
lemma initCalls_rename (ds : List Tree) :
    initCalls (ds.map (rename s)) = (initCalls ds).map (OwnedCall.rename s) := by
  induction ds with
  | nil => rfl
  | cons d ds ih =>
    rw [List.map_cons, initCalls, initCalls, ofDeclarator_rename h0 hs, get_init_rename h0,
      ownedCall?_rename h0, ih, List.map_append, Option.toList_map]

/-- The calls in the slots of a node are the renamed ones. -/
lemma slotCalls_renameFields (kind : Kind) (fs : Fields) :
    slotCalls kind (renameFields s fs) = (slotCalls kind fs).map (OwnedCall.rename s) := by
  by_cases hkind : kind = .variableDeclaration
  · subst hkind
    rw [slotCalls, slotCalls, field_renameFields s (by decide), (keepsReadings_rename h0).items,
      initCalls_rename h0 hs]
  · rw [slotCalls_of_ne_declaration hkind, slotCalls_of_ne_declaration hkind,
      slotContext_renameFields h0]
    cases hslot : kind.slot? with
    | none => rfl
    | some name =>
      have hname : name ≠ "ctxt" :=
        ne_of_mem_of_not_mem (slot?_mem_slotNames hslot) (by decide)
      simp only [field_renameFields s hname, ownedCall?_rename h0, Option.toList_map]

/-- The owned calls of a renamed tree are the renamed owned calls, each in its context. -/
theorem ownedCalls_rename (t : Tree) :
    (t.rename s).ownedCalls = t.ownedCalls.map (OwnedCall.rename s) := by
  have hnumber : ∀ t : Tree, (t.renameNumber s).ownedCalls = t.ownedCalls := by
    intro t
    unfold renameNumber
    split <;> rfl
  induction t using partsInduction with
  | null | bool b | num m d | str v => rfl
  | list ts ih =>
    rw [rename_list, ownedCalls, ownedCalls, ownedCallsOfList_eq, ownedCallsOfList_eq,
      List.map_map, List.map_flatten, List.map_map]
    exact congrArg List.flatten (List.map_congr_left ih)
  | node kind fs ih =>
    rw [rename_node, ownedCalls, ownedCalls, slotCalls_renameFields h0 hs, List.map_append,
      ownedCallsOfFields_eq, ownedCallsOfFields_eq, map_renameFields s hnumber, List.map_flatten,
      List.map_map, List.map_map, List.map_map]
    exact congrArg _ (congrArg List.flatten (List.map_congr_left fun p hp => ih p hp))

/-- The owned calls of a list are the renamed ones, in their order. -/
lemma ownedCallsOfList_map_rename (ts : List Tree) :
    ownedCallsOfList (ts.map (rename s)) = (ownedCallsOfList ts).map (OwnedCall.rename s) := by
  have hlist := ownedCalls_rename h0 hs (list ts)
  rwa [rename_list, ownedCalls, ownedCalls] at hlist

end Injective

/-! ### Wrapping them -/

section Rule

variable {rule rule' : OwnedCall → List String} (hrule : ∀ c, rule' (c.rename s) = rule c)

include hrule

/-- A renamed expression is given the labels that it was given. -/
lemma labelsOf_rename (context : BindingContext) (t : Tree) :
    labelsOf rule' context (t.rename s) = labelsOf rule context t := by
  rw [labelsOf, labelsOf, ownedCall?_rename h0]
  cases t.ownedCall? context with
  | none => rfl
  | some c => exact hrule c

variable (hs : Function.Injective s)

include hs

/-- Initialisers are wrapped by what the renamed declarators stand for. -/
lemma wrapInits_rename (wrapper : String) (before es : List Tree) :
    wrapInits wrapper rule' (before.map (rename s)) es = wrapInits wrapper rule before es := by
  induction before generalizing es with
  | nil => cases es <;> rfl
  | cons d ds ih =>
    cases es with
    | nil => rfl
    | cons e es =>
      rw [List.map_cons, wrapInits, wrapInits, ih, ofDeclarator_rename h0 hs, get_init_rename h0,
        labelsOf_rename h0 hrule]

/-- The same is done to the slots of a node, since the same calls get the same labels. -/
lemma slotEdit_renameFields (wrapper : String) (kind : Kind) (fs : Fields) :
    slotEdit wrapper rule' kind (renameFields s fs) = slotEdit wrapper rule kind fs := by
  by_cases hkind : kind = .variableDeclaration
  · subst hkind
    have hinits : wrapInits wrapper rule' ((field "declarations" fs).items.map (rename s)) =
        wrapInits wrapper rule (field "declarations" fs).items :=
      funext (wrapInits_rename h0 hrule hs wrapper _)
    rw [slotEdit, slotEdit, field_renameFields s (by decide), (keepsReadings_rename h0).items,
      hinits]
  · rw [slotEdit_of_ne_declaration _ _ hkind, slotEdit_of_ne_declaration _ _ hkind,
      slotContext_renameFields h0]
    refine Option.map_congr fun name hslot => ?_
    have hname : name ≠ "ctxt" := ne_of_mem_of_not_mem (slot?_mem_slotNames hslot) (by decide)
    simp only [field_renameFields s hname, labelsOf_rename h0 hrule]

/-- The slots of a renamed node are the renamed slots. -/
lemma wrapSlots_renameFields (wrapper : String) (kind : Kind) (before fs : Fields) :
    wrapSlots wrapper rule' kind (renameFields s before) (renameFields s fs) =
      renameFields s (wrapSlots wrapper rule kind before fs) := by
  unfold wrapSlots
  rw [slotEdit_renameFields h0 hrule hs]
  split
  · rename_i name edit he
    have hname : name ≠ "ctxt" := ne_of_mem_of_not_mem (slotEdit_name_mem he) (by decide)
    have hedit := (commutesWithWrapping_rename h0 wrapper).slotEdit he (field name fs)
    exact (renameFields_modifyField s hname hedit).symm
  · rfl

/-- A pass over a renamed tree is the renamed pass, if it gives the renamed calls the same
labels. -/
theorem wrapOwned_rename (wrapper : String) (t : Tree) :
    (t.rename s).wrapOwned wrapper rule' = (t.wrapOwned wrapper rule).rename s := by
  induction t using partsInduction with
  | null | bool b | num m d | str v => rfl
  | list ts ih =>
    rw [rename_list, wrapOwned_list, wrapOwned_list, rename_list, List.map_map, List.map_map]
    exact congrArg list (List.map_congr_left ih)
  | node kind fs ih =>
    -- the number of a context is a leaf, which a pass leaves as it is
    have hfields : mapFields (wrapOwned wrapper rule') (renameFields s fs) =
        renameFields s (mapFields (wrapOwned wrapper rule) fs) := by
      simp only [renameFields, renameCtxt, mapFields, List.map_map]
      refine List.map_congr_left fun p hp => congrArg (Prod.mk p.1) ?_
      simp only [Function.comp_apply, ← ih p hp, renameField]
      split
      · exact (keepsReadings_wrapOwned wrapper rule').renameNumber s _
      · rfl
    rw [rename_node, wrapOwned_node, wrapOwned_node, rename_node, hfields,
      wrapSlots_renameFields h0 hrule hs]

end Rule

/-! ### Imports -/

/-- A renamed tree binds the renamed identifiers, each to its module. -/
theorem bindings_rename (t : Tree) :
    (t.rename s).bindings = t.bindings.map fun p => (p.1.rename s, p.2) := by
  have hnumber : ∀ t : Tree, (t.renameNumber s).bindings = t.bindings := by
    intro t
    unfold renameNumber
    split <;> rfl
  induction t using partsInduction with
  | null | bool b | num m d | str v => rfl
  | list ts ih =>
    rw [rename_list, bindings, bindings, bindingsOfList_eq, bindingsOfList_eq, List.map_map,
      List.map_flatten, List.map_map]
    exact congrArg List.flatten (List.map_congr_left ih)
  | node kind fs ih =>
    by_cases hkind : kind = .importDeclaration
    · subst hkind
      rw [rename_node]
      exact (keepsReadings_rename h0).importedBindings fs
    · rw [rename_node, bindings_node hkind, bindings_node hkind, bindingsOfFields_eq,
        bindingsOfFields_eq, map_renameFields s hnumber, List.map_flatten, List.map_map,
        List.map_map, List.map_map]
      exact congrArg List.flatten (List.map_congr_left fun p hp => ih p hp)

/-- The items of a list bind the renamed identifiers to the same modules. -/
lemma bindingsOfList_map_rename (ts : List Tree) :
    bindingsOfList (ts.map (rename s)) =
      (bindingsOfList ts).map fun p => (p.1.rename s, p.2) := by
  have hlist := bindings_rename h0 (list ts)
  rwa [rename_list, bindings, bindings] at hlist

end Outermost

end Tree

/-- The last one of the bindings of an identifier is found again when different identifiers stay
different. -/
lemma ImportBindings.lastSource?_map {ι : Ident → Ident} (hι : Function.Injective ι) (x : Ident)
    (l : List (Ident × String)) :
    lastSource? (ι x) (l.map fun p => (ι p.1, p.2)) = lastSource? x l := by
  induction l with
  | nil => rfl
  | cons p l ih =>
    rw [List.map_cons, lastSource?_cons, lastSource?_cons, ih]
    simp only [hι.eq_iff]

/-! ### Labels and logs -/

namespace Labeller

variable {s : Nat → Nat} {config : Config} {resolver resolver' : Resolver}
  (hresolver : ∀ x origins, resolver' (x.rename s) origins = resolver x origins)

include hresolver

/-- A renamed call has the label of the call. -/
lemma label?_rename (c : OwnedCall) :
    label? ⟨config, resolver'⟩ (c.rename s) = label? ⟨config, resolver⟩ c := by
  have hcallee : resolver' (c.rename s).callee config.origins = resolver c.callee config.origins :=
    hresolver c.callee config.origins
  simp only [label?, hcallee]
  rfl

/-- What is reported about a renamed call is what is reported about the call. -/
lemma event?_rename (c : OwnedCall) :
    event? ⟨config, resolver'⟩ (c.rename s) = event? ⟨config, resolver⟩ c := by
  have hcallee : resolver' (c.rename s).callee config.origins = resolver c.callee config.origins :=
    hresolver c.callee config.origins
  simp only [event?, hcallee]
  rfl

/-- The log of renamed calls is the log of the calls. -/
lemma logOf_map_rename (cs : List OwnedCall) :
    logOf ⟨config, resolver'⟩ (cs.map (OwnedCall.rename s)) = logOf ⟨config, resolver⟩ cs := by
  have hlabel : (fun c => (label? ⟨config, resolver'⟩ c).isSome) ∘ OwnedCall.rename s =
      fun c => (label? ⟨config, resolver⟩ c).isSome :=
    funext fun c => congrArg Option.isSome (label?_rename hresolver c)
  have hevent : event? ⟨config, resolver'⟩ ∘ OwnedCall.rename s = event? ⟨config, resolver⟩ :=
    funext (event?_rename hresolver)
  rw [logOf, logOf, List.countP_map, List.filterMap_map, hlabel, hevent]

end Labeller

namespace Module

/-- Renumbers every context of a module. -/
def rename (s : Nat → Nat) (m : Module) : Module where
  body := m.body.map (Tree.rename s)
  attributes := Tree.renameFields s m.attributes

section Run

variable {s : Nat → Nat} (hs : Function.Injective s) (h0 : s 0 = 0)

include hs h0

/-- A renamed identifier is imported in the renamed module from where it was imported. -/
lemma source?_rename (m : Module) (x : Ident) :
    (m.rename s).imports.source? (x.rename s) = m.imports.source? x := by
  rw [source?_imports, source?_imports, rename, Tree.bindingsOfList_map_rename h0,
    ImportBindings.lastSource?_map (Ident.rename_injective hs)]

/-- A renamed identifier is tracked in the renamed module exactly if the identifier was. -/
lemma resolves_rename (m : Module) (x : Ident) (origins : List String) :
    (m.rename s).imports.resolves (x.rename s) origins = m.imports.resolves x origins := by
  rw [ImportBindings.resolves, ImportBindings.resolves, source?_rename hs h0]

/-- Labelling a renamed module by a resolver that answers as before. -/
lemma label_rename (m : Module) (config : Config) {resolver resolver' : Resolver}
    (hresolver : ∀ x origins, resolver' (x.rename s) origins = resolver x origins) :
    (m.rename s).label config resolver' =
      ⟨(m.label config resolver).value.rename s, (m.label config resolver).log⟩ := by
  have hrule : ∀ c : OwnedCall, Labeller.labels ⟨config, resolver'⟩ (c.rename s) =
      Labeller.labels ⟨config, resolver⟩ c :=
    fun c => congrArg Option.toList (Labeller.label?_rename hresolver c)
  have hbody : (m.rename s).body.map (Tree.wrapOwned config.wrapperName
        (Labeller.labels ⟨config, resolver'⟩)) =
      (m.body.map (Tree.wrapOwned config.wrapperName
        (Labeller.labels ⟨config, resolver⟩))).map (Tree.rename s) := by
    rw [rename, List.map_map, List.map_map]
    exact List.map_congr_left fun t _ => Tree.wrapOwned_rename h0 hrule hs config.wrapperName t
  have hlog : Labeller.logOf ⟨config, resolver'⟩ (Tree.ownedCallsOfList (m.rename s).body) =
      Labeller.logOf ⟨config, resolver⟩ (Tree.ownedCallsOfList m.body) := by
    rw [rename, Tree.ownedCallsOfList_map_rename h0 hs, Labeller.logOf_map_rename hresolver]
  rw [label_eq, label_eq, hbody, hlog]
  rfl

omit hs in
/-- The import of the helper is the same in front of a renamed module. -/
lemma addWrapperImport_rename (m : Module) (config : Config) (log : Log) :
    (m.rename s).addWrapperImport config log =
      ⟨(m.addWrapperImport config log).value.rename s, (m.addWrapperImport config log).log⟩ := by
  unfold addWrapperImport
  split
  · rw [rename, rename, List.map_cons, Tree.rename_wrapperImport h0]
  · rfl

/-- The numbers of syntax contexts matter only up to equality: for every injective renumbering that
keeps the outermost context, labelling a renamed module gives the renamed result with the same log,
and a renamed pattern, head of a loop or declarator gives the same binding context. -/
theorem run_rename (config : Config) (m : Module) :
    ((m.rename s).run config).value = (m.run config).value.rename s ∧
    ((m.rename s).run config).log = (m.run config).log ∧
    (∀ t : Tree,
      BindingContext.ofPattern (t.rename s).pattern = .ofPattern t.pattern ∧
      BindingContext.ofAssignTarget (t.rename s).pattern = .ofAssignTarget t.pattern ∧
      BindingContext.ofForHead (t.rename s).forHead = .ofForHead t.forHead) ∧
    ∀ (ds : List Tree) (index : Nat),
      BindingContext.ofDeclarators ((ds.map (Tree.rename s)).map Tree.declarator) index =
        .ofDeclarators (ds.map Tree.declarator) index := by
  have hlabel := label_rename hs h0 m config (resolves_rename hs h0 m)
  have hrun : (m.rename s).run config = ⟨(m.run config).value.rename s, (m.run config).log⟩ := by
    rw [run, run, hlabel, addWrapperImport_rename h0]
  have hname := Ident.name_rename s
  refine ⟨by rw [hrun], by rw [hrun], fun t => ⟨?_, ?_, ?_⟩, fun ds index => ?_⟩
  · rw [(Tree.keepsReadings_rename h0).pattern, BindingContext.ofPattern_mapIdents hname]
  · rw [(Tree.keepsReadings_rename h0).pattern, BindingContext.ofAssignTarget_mapIdents hname]
  · rw [Tree.forHead_rename h0, BindingContext.ofForHead_mapIdents hname]
  · rw [(Tree.keepsReadings_rename h0).map_declarator,
      BindingContext.ofDeclarators_mapIdents hname (Ident.rename_injective hs)]

end Run

/-- Exchanging two contexts, in one of which a hook is imported and called, while in the other one
its name stands for something else. -/
theorem run_rename_of_swap :
    let s : Nat → Nat := Equiv.swap 1 2
    let hook : Nat → Tree := fun ctxt =>
      .node .identifier [("ctxt", .num ctxt 0), ("value", .str "useState")]
    let assignment : String → Nat → Tree := fun name ctxt =>
      .node .assignmentExpression [("left", .reference name), ("right", .node .callExpression
        [("ctxt", .num 0 0), ("callee", hook ctxt), ("arguments", .list [])])]
    let m : Module := ⟨[.node .importDeclaration
      [("specifiers", .list [.node .importSpecifier [("local", hook 1)]]),
        ("source", .stringLiteral "react")], assignment "a" 1, assignment "b" 2], []⟩
    Function.Injective s ∧ s 0 = 0 ∧
    ((m.rename s).run {}).value = (m.run {}).value.rename s ∧
    ((m.rename s).run {}).log = (m.run {}).log := by
  intro s hook assignment m
  have hs : Function.Injective s := (Equiv.swap 1 2).injective
  have h0 : s 0 = 0 := by decide
  exact ⟨hs, h0, (run_rename hs h0 {} m).1, (run_rename hs h0 {} m).2.1⟩

end Module

end HookLabel
