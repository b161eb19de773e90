import HookLabel.Proofs.Labelling
import HookLabel.Proofs.Lowering

/-!
# Labelling lowered declarations

Labelling does not see whether the destructuring of an array has been lowered.  The declarators that
read the elements own no call (`IsIdle`), the temporaries own none, and every value stands in its
context as before.  So labelling the declarators of a declaration commutes with lowering them
(`initsAfter_lowerDeclarators`), and labelling a lowered declaration is lowering the labelled one,
with the same log (`labelTree_lowerDeclaration`).
-/

namespace HookLabel

namespace Tree

/-! ### What owns nothing -/

/-- A part of a tree without owned calls has none. -/
lemma ownedCalls_field_eq_nil {kind : Kind} {fs : Fields} (h : (node kind fs).ownedCalls = [])
    (name : String) : (field name fs).ownedCalls = [] := by
  rw [ownedCalls] at h
  have hfields := (List.append_eq_nil_iff.mp h).2
  clear h
  induction fs with
  | nil => rfl
  | cons p fs ih =>
    obtain ⟨n, t⟩ := p
    rw [ownedCallsOfFields] at hfields
    obtain ⟨ht, hfs⟩ := List.append_eq_nil_iff.mp hfields
    rw [field]
    split
    · exact ht
    · exact ih hfs

/-- An item of a list without owned calls has none. -/
lemma ownedCalls_of_mem_items {t u : Tree} (h : t.ownedCalls = []) (hu : u ∈ t.items) :
    u.ownedCalls = [] := by
  cases t with
  | list ts =>
    rw [ownedCalls, ownedCallsOfList_eq] at h
    exact List.flatten_eq_nil_iff.mp h _ (List.mem_map_of_mem hu)
  | _ => cases hu

/-- The elements of a pattern that is lowered own no calls. -/
lemma Destructures.ownedCalls_of_mem_elements {d e : Tree} (hd : d.Destructures)
    (he : e ∈ d.elements) : e.ownedCalls = [] := by
  have howns := hd.ownsNothing
  obtain ⟨ps, hps⟩ := hd.isArray
  rw [hps] at howns
  rw [elements, hps] at he
  exact ownedCalls_of_mem_items (ownedCalls_field_eq_nil howns "elements") he

/-- A declarator that labelling leaves as it is: no call is owned in it, and it is initialised by
none. -/
def IsIdle (r : Tree) : Prop :=
  r.ownedCalls = [] ∧ ∀ context, (r.get "init").ownedCall? context = none

/-- The read of an element is no call. -/
lemma ownedCall?_elementRead (context : BindingContext) (tmp : Ident) (i : Nat) :
    (elementRead tmp i).ownedCall? context = none := by
  have hread : (elementRead tmp i).unparenthesized = elementRead tmp i :=
    unparenthesized_of_ne_paren nofun
  rw [ownedCall?, hread]
  rfl

/-- The reads of the elements of a chosen declarator are idle. -/
lemma Destructures.isIdle_of_mem_reads {d r : Tree} (hd : d.Destructures) {tmp : Ident} {i : Nat}
    (hr : r ∈ readDeclarators tmp i d.elements) : r.IsIdle := by
  obtain ⟨j, e, he, rfl⟩ := mem_readDeclarators hr
  have howns : (readDeclarator tmp j e).ownedCalls = e.ownedCalls ++ [] := rfl
  refine ⟨?_, fun context => ?_⟩
  · rw [howns, hd.ownedCalls_of_mem_elements he, List.append_nil]
  · exact ownedCall?_elementRead context tmp j

/-- Idle declarators in front change nothing about the calls of initialisers. -/
lemma initCalls_append {rs : List Tree} (h : ∀ r ∈ rs, r.IsIdle) (ds : List Tree) :
    initCalls (rs ++ ds) = initCalls ds := by
  induction rs with
  | nil => rfl
  | cons r rs ih =>
    rw [List.cons_append, initCalls, (h r List.mem_cons_self).2,
      ih fun r' hr' => h r' (List.mem_cons_of_mem r hr')]
    rfl

/-- Idle declarators own no calls themselves. -/
lemma ownedCallsOfList_append {rs : List Tree} (h : ∀ r ∈ rs, r.IsIdle) (ds : List Tree) :
    ownedCallsOfList (rs ++ ds) = ownedCallsOfList ds := by
  induction rs with
  | nil => rfl
  | cons r rs ih =>
    rw [List.cons_append, ownedCallsOfList, (h r List.mem_cons_self).1,
      ih fun r' hr' => h r' (List.mem_cons_of_mem r hr'), List.nil_append]

/-- Replacing the pattern by a temporary loses no call: the pattern owns none. -/
lemma Destructures.ownedCalls_bindTemporary {d : Tree} (hd : d.Destructures) (tmp : Ident) :
    (d.bindTemporary tmp).ownedCalls = d.ownedCalls := by
  have howns := hd.ownsNothing
  obtain ⟨fs, rfl⟩ := hd.isDeclarator
  have hid : (identifierNode tmp [("typeAnnotation", null)]).ownedCalls =
      (field "id" fs).ownedCalls :=
    (ownedCalls_temporary tmp).trans howns.symm
  have hmap := map_setField (g := fun _ => ownedCalls) hid
  rw [bindTemporary, ownedCalls, ownedCalls, ownedCallsOfFields_eq, ownedCallsOfFields_eq, hmap]
  rfl

/-! ### Labelling lowered declarators -/

section Rule

variable (wrapper : String) (rule : OwnedCall → List String)

/-- Idle declarators stay as they are in front of those that are wrapped. -/
lemma initsAfter_append {rs : List Tree} (h : ∀ r ∈ rs, r.IsIdle) (ds : List Tree) :
    initsAfter wrapper rule (rs ++ ds) = rs ++ initsAfter wrapper rule ds := by
  induction rs with
  | nil => rfl
  | cons r rs ih =>
    obtain ⟨howns, hinit⟩ := h r List.mem_cons_self
    have hself : r.wrapOwned wrapper rule = r := wrapOwned_eq_self (by rw [howns]; nofun)
    rw [List.cons_append, initsAfter_cons, hself, labelsOf, hinit,
      ih fun r' hr' => h r' (List.mem_cons_of_mem r hr'), List.cons_append]
    congr 1
    cases r with
    | node kind fs => exact congrArg (node kind) (setField_field "init" fs)
    | _ => rfl

/-- The temporary takes the place of the pattern before or after the value is labelled. -/
lemma Destructures.bindTemporary_wrapOwned {d : Tree} (hd : d.Destructures) (tmp : Ident)
    (f : Tree → Tree) :
    ((d.bindTemporary tmp).wrapOwned wrapper rule).modifyInit f =
      ((d.wrapOwned wrapper rule).modifyInit f).bindTemporary tmp := by
  obtain ⟨fs, rfl⟩ := hd.isDeclarator
  have hself : (identifierNode tmp [("typeAnnotation", null)]).wrapOwned wrapper rule =
      identifierNode tmp [("typeAnnotation", null)] := by
    refine wrapOwned_eq_self ?_
    rw [ownedCalls_temporary]
    nofun
  have hmap : mapFields (wrapOwned wrapper rule)
      (setField "id" (identifierNode tmp [("typeAnnotation", null)]) fs) =
        setField "id" (identifierNode tmp [("typeAnnotation", null)])
          (mapFields (wrapOwned wrapper rule) fs) :=
    (map_setField_eq (fun _ => wrapOwned wrapper rule) "id" _ fs).trans (by rw [hself]; rfl)
  have hne : "init" ≠ "id" := by decide
  rw [bindTemporary, wrapOwned_node, wrapOwned_node, wrapSlots_of_not_isOwner rfl,
    wrapSlots_of_not_isOwner rfl, hmap, modifyInit, modifyInit, bindTemporary, modifyField,
    modifyField, field_setField_of_ne hne, setField_comm hne]

/-- The pattern is not touched when the value is labelled. -/
lemma Destructures.elements_wrapOwned {d : Tree} (hd : d.Destructures) (f : Tree → Tree) :
    ((d.wrapOwned wrapper rule).modifyInit f).elements = d.elements := by
  have hid : ((d.wrapOwned wrapper rule).modifyInit f).get "id" =
      (d.wrapOwned wrapper rule).get "id" := by
    cases d.wrapOwned wrapper rule with
    | node kind fs =>
      have hne : "id" ≠ "init" := by decide
      exact field_modifyField_of_ne hne f fs
    | _ => rfl
  have hslot : "id" ∉ slotNames := by decide
  have hself : (d.get "id").wrapOwned wrapper rule = d.get "id" :=
    wrapOwned_eq_self (by rw [hd.ownsNothing]; nofun)
  rw [elements, hid, get_wrapOwned wrapper rule hslot, hself, elements]

/-! ### The declarators of a lowered declaration -/

variable {choice : List (Option Ident)} {ds : List Tree}

/-- Lowering moves no call to another context, and the reads own none. -/
lemma initCalls_lowerDeclarators (h : CanLower choice ds) :
    initCalls (lowerDeclarators choice ds) = initCalls ds := by
  fun_induction lowerDeclarators choice ds with
  | case1 tmp choice d ds ih =>
    have hd : d.Destructures := h.head
    have hreads : ∀ r ∈ readDeclarators tmp 0 d.elements, r.IsIdle :=
      fun r hr => hd.isIdle_of_mem_reads hr
    rw [lowerDeclarator, List.cons_append, initCalls, initCalls,
      BindingContext.ofDeclarator_lower h, Destructures.get_init_bindTemporary,
      initCalls_append hreads, ih h.tail]
  | case2 choice d ds ih =>
    rw [initCalls, initCalls, BindingContext.ofDeclarator_keep h, ih h.tail]
  | case3 ds => rfl
  | case4 choice _ => rfl

/-- Lowering changes nothing about what is owned below the declarators. -/
lemma ownedCallsOfList_lowerDeclarators (h : CanLower choice ds) :
    ownedCallsOfList (lowerDeclarators choice ds) = ownedCallsOfList ds := by
  fun_induction lowerDeclarators choice ds with
  | case1 tmp choice d ds ih =>
    have hd : d.Destructures := h.head
    have hreads : ∀ r ∈ readDeclarators tmp 0 d.elements, r.IsIdle :=
      fun r hr => hd.isIdle_of_mem_reads hr
    rw [lowerDeclarator, List.cons_append, ownedCallsOfList, ownedCallsOfList,
      hd.ownedCalls_bindTemporary, ownedCallsOfList_append hreads, ih h.tail]
  | case2 choice d ds ih => rw [ownedCallsOfList, ownedCallsOfList, ih h.tail]
  | case3 ds => rfl
  | case4 choice _ => rfl

/-- Labelling the declarators of a declaration commutes with lowering them. -/
lemma initsAfter_lowerDeclarators (h : CanLower choice ds) :
    initsAfter wrapper rule (lowerDeclarators choice ds) =
      lowerDeclarators choice (initsAfter wrapper rule ds) := by
  fun_induction lowerDeclarators choice ds with
  | case1 tmp choice d ds ih =>
    have hd : d.Destructures := h.head
    have hreads : ∀ r ∈ readDeclarators tmp 0 d.elements, r.IsIdle :=
      fun r hr => hd.isIdle_of_mem_reads hr
    rw [lowerDeclarator, List.cons_append, initsAfter_cons, initsAfter_cons,
      BindingContext.ofDeclarator_lower h, Destructures.get_init_bindTemporary,
      hd.bindTemporary_wrapOwned, initsAfter_append wrapper rule hreads, ih h.tail,
      lowerDeclarators, lowerDeclarator, hd.elements_wrapOwned, List.cons_append]
  | case2 choice d ds ih =>
    rw [initsAfter_cons, initsAfter_cons, BindingContext.ofDeclarator_keep h, ih h.tail,
      lowerDeclarators]
  | case3 ds => rw [lowerDeclarators]
  | case4 choice _ => exact (lowerDeclarators_nil choice).symm

/-! ### Whole declarations -/

/-- A declaration after a pass. -/
lemma wrapOwned_declaration {fs : Fields} (h : field "declarations" fs = list ds) :
    (node .variableDeclaration fs).wrapOwned wrapper rule =
      node .variableDeclaration (setField "declarations" (list (initsAfter wrapper rule ds))
        (mapFields (wrapOwned wrapper rule) fs)) := by
  have hafter : field "declarations" (mapFields (wrapOwned wrapper rule) fs) =
      list (ds.map (wrapOwned wrapper rule)) := by
    rw [field_mapFields (wrapOwned_null ..), h, wrapOwned_list]
  rw [wrapOwned_node]
  simp only [wrapSlots, slotEdit, modifyField, hafter, h, items, mapItems, initsAfter]

/-- A declaration is lowered in its declarators. -/
lemma lowerDeclaration_eq {kind : Kind} {fs : Fields} (h : field "declarations" fs = list ds) :
    (node kind fs).lowerDeclaration choice =
      node kind (setField "declarations" (list (lowerDeclarators choice ds)) fs) := by
  rw [lowerDeclaration, modifyField, h]
  rfl

variable {fs : Fields}

/-- Labelling a declaration commutes with lowering it. -/
lemma wrapOwned_lowerDeclaration (hds : field "declarations" fs = list ds) (h : CanLower choice ds) :
    ((node .variableDeclaration fs).lowerDeclaration choice).wrapOwned wrapper rule =
      ((node .variableDeclaration fs).wrapOwned wrapper rule).lowerDeclaration choice := by
  have hlowered : field "declarations"
      (setField "declarations" (list (lowerDeclarators choice ds)) fs) =
        list (lowerDeclarators choice ds) :=
    field_setField (by rw [hds]; nofun) _
  have hafter : field "declarations" (mapFields (wrapOwned wrapper rule) fs) ≠ null := by
    rw [field_mapFields (wrapOwned_null ..), hds, wrapOwned_list]
    nofun
  have hmap : mapFields (wrapOwned wrapper rule)
      (setField "declarations" (list (lowerDeclarators choice ds)) fs) =
        setField "declarations" ((list (lowerDeclarators choice ds)).wrapOwned wrapper rule)
          (mapFields (wrapOwned wrapper rule) fs) :=
    map_setField_eq (fun _ => wrapOwned wrapper rule) "declarations" _ fs
  rw [lowerDeclaration_eq hds, wrapOwned_declaration wrapper rule hlowered, hmap,
    setField_setField, wrapOwned_declaration wrapper rule hds,
    lowerDeclaration_eq (field_setField hafter _), setField_setField,
    initsAfter_lowerDeclarators wrapper rule h]

end Rule

/-- Lowering a declaration keeps its owned calls, in their order. -/
lemma ownedCalls_lowerDeclaration {choice : List (Option Ident)} {ds : List Tree} {fs : Fields}
    (hds : field "declarations" fs = list ds) (h : CanLower choice ds) :
    ((node .variableDeclaration fs).lowerDeclaration choice).ownedCalls =
      (node .variableDeclaration fs).ownedCalls := by
  have hlowered : field "declarations"
      (setField "declarations" (list (lowerDeclarators choice ds)) fs) =
        list (lowerDeclarators choice ds) :=
    field_setField (by rw [hds]; nofun) _
  have hlist : (list (lowerDeclarators choice ds)).ownedCalls =
      (field "declarations" fs).ownedCalls := by
    rw [hds, ownedCalls, ownedCalls, ownedCallsOfList_lowerDeclarators h]
  have hmap := map_setField (g := fun _ => ownedCalls) hlist
  rw [lowerDeclaration_eq hds, ownedCalls, ownedCalls, slotCalls, slotCalls, hlowered, hds, items,
    items, initCalls_lowerDeclarators h, ownedCallsOfFields_eq, ownedCallsOfFields_eq, hmap]

/-! ### Temporaries that occur nowhere -/

mutual

/-- The identifiers that occur in a tree. -/
def idents : Tree → List Ident
  | node kind fs => (node kind fs).ident?.toList ++ identsOfFields fs
  | list ts => identsOfList ts
  | _ => []

/-- The identifiers that occur in the trees of a list. -/
def identsOfList : List Tree → List Ident
  | [] => []
  | t :: ts => t.idents ++ identsOfList ts

/-- The identifiers that occur in the fields of a node. -/
def identsOfFields : List (String × Tree) → List Ident
  | [] => []
  | (_, t) :: fs => t.idents ++ identsOfFields fs

end

/-- An identifier is among those of its tree. -/
lemma mem_idents_of_ident? {t : Tree} {x : Ident} (h : t.ident? = some x) : x ∈ t.idents := by
  cases t with
  | node kind fs =>
    rw [idents, h]
    exact List.mem_cons_self
  | _ => cases h

/-- The identifiers of a field are among those of the node. -/
lemma idents_field_subset (name : String) (kind : Kind) (fs : Fields) :
    (field name fs).idents ⊆ (node kind fs).idents := by
  have hfields : (field name fs).idents ⊆ identsOfFields fs := by
    induction fs with
    | nil => exact List.nil_subset _
    | cons p fs ih =>
      obtain ⟨n, t⟩ := p
      rw [field, identsOfFields]
      split
      · exact List.subset_append_left _ _
      · exact fun x hx => List.mem_append_right _ (ih hx)
  rw [idents]
  exact fun x hx => List.mem_append_right _ (hfields hx)

/-- The identifiers of a part are among those of the tree. -/
lemma idents_get_subset (name : String) (t : Tree) : (t.get name).idents ⊆ t.idents := by
  cases t with
  | node kind fs => exact idents_field_subset name kind fs
  | _ => exact List.nil_subset _

/-- The identifiers of an item are among those of the list. -/
lemma idents_subset_of_mem {ts : List Tree} {t : Tree} (h : t ∈ ts) :
    t.idents ⊆ identsOfList ts := by
  induction ts with
  | nil => cases h
  | cons u ts ih =>
    rw [identsOfList]
    rcases List.mem_cons.mp h with rfl | h
    · exact List.subset_append_left _ _
    · exact fun x hx => List.mem_append_right _ (ih h hx)

/-- An expression that reads an element of an identifier mentions it. -/
lemma mem_idents_of_elementOf? {t : Tree} {x : Ident} (h : t.elementOf? = some x) :
    x ∈ t.idents := by
  unfold elementOf? at h
  split at h
  · rename_i fs
    split at h
    · split at h
      · exact idents_field_subset "object" _ fs (mem_idents_of_ident? h)
      · cases h
    · cases h
  · cases h

/-- What occurs in none of the declarators is fresh. -/
lemma isFresh_of_notMem_idents {ds : List Tree} {tmp : Ident} (h : tmp ∉ identsOfList ds) :
    IsFresh ds tmp := by
  intro d hd
  have hparts : ∀ name, (d.get name).idents ⊆ identsOfList ds :=
    fun name x hx => idents_subset_of_mem hd (idents_get_subset name d hx)
  refine ⟨fun htarget => h (hparts "id" ?_), fun helement => h (hparts "init" ?_)⟩
  · exact mem_idents_of_ident? (ident?_of_pattern htarget)
  · exact mem_idents_of_elementOf? helement

end Tree

/-! ### Labelling a lowered declaration -/

namespace Labeller

open HookLabel.Tree

/-- Lowering the destructuring of arrays commutes with labelling.  Take a declaration, some of whose
declarators destructure an array of which one element at least is an identifier and whose value is a
call, and for each of these a temporary, no two of them the same.  Temporaries that occur nowhere in
the declaration are fresh, and with fresh temporaries labelling the lowered declaration makes what
lowering makes of the labelled one; as many calls are labelled, and the same events are reported in
the same order. -/
theorem labelTree_lowerDeclaration (l : Labeller) {choice : List (Option Ident)} {ds : List Tree}
    {fs : Fields} (hds : field "declarations" fs = list ds)
    (hchosen : ∀ p ∈ choice.zip ds, p.1.isSome → p.2.Destructures)
    (hdistinct : (temporaries choice).Nodup) :
    ((∀ tmp ∈ temporaries choice, tmp ∉ (node .variableDeclaration fs).idents) →
      ∀ tmp ∈ temporaries choice, IsFresh ds tmp) ∧
    ((∀ tmp ∈ temporaries choice, IsFresh ds tmp) →
      let labelled := l.labelTree (node .variableDeclaration fs)
      let loweredFirst := l.labelTree ((node .variableDeclaration fs).lowerDeclaration choice)
      loweredFirst.value = labelled.value.lowerDeclaration choice ∧
      loweredFirst.log.labelCount = labelled.log.labelCount ∧
      loweredFirst.log.events = labelled.log.events) := by
  constructor
  · intro habsent tmp htmp
    refine isFresh_of_notMem_idents fun hmem => habsent tmp htmp ?_
    refine idents_field_subset "declarations" _ fs ?_
    rwa [hds, idents]
  · intro hfresh labelled loweredFirst
    have h : CanLower choice ds := ⟨hchosen, hdistinct, hfresh⟩
    have hlog : loweredFirst.log = labelled.log := by
      simp only [loweredFirst, labelled, labelTree_eq, ownedCalls_lowerDeclaration hds h]
    refine ⟨?_, congrArg Log.labelCount hlog, congrArg Log.events hlog⟩
    simp only [loweredFirst, labelled, labelTree_eq]
    exact wrapOwned_lowerDeclaration l.config.wrapperName l.labels hds h

/-! ### Two calls -/

/-- The call `useState()`. -/
def plainCall : Tree :=
  node .callExpression [("ctxt", num 0 0), ("callee", reference "useState"), ("arguments", list []),
    ("typeArguments", null)]

/-- A declarator that binds `target` to a value. -/
def plainDeclarator (target value : Tree) : Tree :=
  node (.other "VariableDeclarator") [("id", target), ("init", value), ("definite", bool false)]

/-- The declarator `[a, , b] = (useState())`. -/
def arrayDeclarator : Tree :=
  plainDeclarator (node .arrayPattern [("elements", list [reference "a", null, reference "b"])])
    (node .parenthesisExpression [("expression", plainCall)])

/-- The declarators `t = useState(), c = t[0]`, which are lowered already. -/
def loweredPair : List Tree :=
  [plainDeclarator (reference "t") plainCall, readDeclarator ⟨"t", 0⟩ 0 (reference "c")]

/-- The call stands in no parentheses. -/
lemma unparenthesized_plainCall : plainCall.unparenthesized = plainCall :=
  unparenthesized_of_ne_paren nofun

/-- The declarator destructures the value of a call into names. -/
lemma destructures_arrayDeclarator : arrayDeclarator.Destructures := by
  have hplain : ∀ e ∈ [reference "a", null, reference "b"],
      e = null ∨ ∃ fs, e = node .identifier fs := by
    simp [reference]
  have hcall : (node .parenthesisExpression [("expression", plainCall)]).unparenthesized =
      plainCall := by
    rw [unparenthesized_paren]
    exact unparenthesized_plainCall
  exact ⟨⟨_, rfl⟩, ⟨_, rfl⟩, hplain, ⟨reference "a", List.mem_cons_self, rfl⟩, rfl, ⟨_, hcall⟩⟩

/-- One call is owned by the pattern, and the other by the temporary whose element is read. -/
lemma initCalls_two_calls :
    initCalls (arrayDeclarator :: loweredPair) =
      [⟨⟨"useState", 0⟩, .tuple ["a", "b"]⟩, ⟨⟨"useState", 0⟩, .tuple ["c"]⟩] := by
  have hcall : ∀ context, plainCall.ownedCall? context = some ⟨⟨"useState", 0⟩, context⟩ := by
    intro context
    rw [ownedCall?, unparenthesized_plainCall]
    rfl
  have hparen : ∀ context, (arrayDeclarator.get "init").ownedCall? context =
      some ⟨⟨"useState", 0⟩, context⟩ := by
    intro context
    show (node .parenthesisExpression [("expression", plainCall)]).ownedCall? context = _
    rw [ownedCall?, unparenthesized_paren]
    exact hcall context
  have hread : ∀ context, ((readDeclarator ⟨"t", 0⟩ 0 (reference "c")).get "init").ownedCall?
      context = none :=
    fun context => ownedCall?_elementRead context ⟨"t", 0⟩ 0
  have hmiddle : (plainDeclarator (reference "t") plainCall).declarator =
      ⟨.name ⟨"t", 0⟩, none⟩ :=
    congrArg (fun p => Declarator.mk p none) (pattern_of_ident? (ident?_reference "t"))
  have hlast : (readDeclarator ⟨"t", 0⟩ 0 (reference "c")).declarator =
      ⟨.name ⟨"c", 0⟩, some ⟨"t", 0⟩⟩ :=
    declarator_readDeclarator ⟨"t", 0⟩ 0 (ident?_reference "c")
  have hinit : (plainDeclarator (reference "t") plainCall).get "init" = plainCall := rfl
  rw [initCalls, destructures_arrayDeclarator.ofDeclarator_eq, hparen, loweredPair, initCalls,
    initCalls, initCalls, hread, hinit, hcall, List.map_singleton, hmiddle, hlast]
  rfl

/-- `[a, , b] = (useState()), t = useState(), c = t[0]`, of which the last two are lowered already:
with a temporary for the first, either way the two calls are labelled `a` and `c`. -/
theorem labelTree_lowerDeclaration_of_two_calls :
    let l : Labeller := ⟨{}, fun _ _ => true⟩
    let tmp : Ident := ⟨"tmp", 1⟩
    let ds := arrayDeclarator :: loweredPair
    let d := node .variableDeclaration [("declarations", list ds)]
    (∀ p ∈ [some tmp].zip ds, p.1.isSome → p.2.Destructures) ∧
    (∀ t ∈ temporaries [some tmp], t ∉ d.idents) ∧
    (l.labelTree (d.lowerDeclaration [some tmp])).log.events =
      [.labelled .useState "a", .labelled .useState "c"] := by
  intro l tmp ds d
  have hchosen : ∀ p ∈ [some tmp].zip ds, p.1.isSome → p.2.Destructures := by
    intro p hp _
    obtain rfl := List.mem_singleton.mp hp
    exact destructures_arrayDeclarator
  have habsent : ∀ t ∈ temporaries [some tmp], t ∉ d.idents := by
    decide
  have hds : field "declarations" [("declarations", list ds)] = list ds := rfl
  have hlower := labelTree_lowerDeclaration l hds hchosen (by decide)
  have hlowered := hlower.2 (hlower.1 habsent)
  have hcalls : d.ownedCalls = initCalls ds := List.append_nil _
  have hevents : (l.labelTree d).log.events =
      [.labelled .useState "a", .labelled .useState "c"] := by
    rw [labelTree_eq, hcalls, initCalls_two_calls]
    rfl
  exact ⟨hchosen, habsent, hlowered.2.2.trans hevents⟩

end Labeller

end HookLabel
