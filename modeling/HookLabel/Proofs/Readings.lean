import HookLabel.Proofs.OwnedCalls
import Mathlib.Logic.Function.Basic

/-!
# Changes that keep how a tree reads

A tree is read as an identifier, a call, a pattern, a declarator or the head of a loop.
`KeepsReadings` says of a change of trees that it keeps the kinds of nodes, spells the identifiers of
a tree as a map of identifiers says, and passes on to the parts that are read.  Then every reading of
the changed tree is the reading of the tree, with its identifiers mapped.

Binding contexts hold names and no identifiers.  They stay what they are under a map of identifiers
that keeps names; a declarator among its siblings needs in addition that different identifiers stay
different, since it is told by its identifier which of the siblings read its elements.
-/

namespace HookLabel

/-! ### Mapping the identifiers of a pattern -/

mutual

/-- Maps the identifiers of a pattern. -/
def Pattern.mapIdents (ι : Ident → Ident) : Pattern → Pattern
  | .name x => .name (ι x)
  | .array ps => .array (Pattern.mapIdentsOfList ι ps)
  | .object qs => .object (Property.mapIdentsOfList ι qs)
  | .rest p => .rest (p.mapIdents ι)
  | .withDefault p => .withDefault (p.mapIdents ι)
  | .expression assigned => .expression (assigned.map ι)

/-- Maps the identifiers of each pattern of a list. -/
def Pattern.mapIdentsOfList (ι : Ident → Ident) : List Pattern → List Pattern
  | [] => []
  | p :: ps => p.mapIdents ι :: Pattern.mapIdentsOfList ι ps

/-- Maps the identifiers of a property. -/
def Property.mapIdents (ι : Ident → Ident) : Property → Property
  | .keyed p => .keyed (p.mapIdents ι)
  | .shorthand x hasDefault => .shorthand (ι x) hasDefault
  | .rest p => .rest (p.mapIdents ι)

/-- Maps the identifiers of each property of a list. -/
def Property.mapIdentsOfList (ι : Ident → Ident) : List Property → List Property
  | [] => []
  | q :: qs => q.mapIdents ι :: Property.mapIdentsOfList ι qs

end

section MapIdents

variable (ι : Ident → Ident)

/-- Mapping the patterns of a list is mapping each. -/
lemma Pattern.mapIdentsOfList_eq_map (ps : List Pattern) :
    Pattern.mapIdentsOfList ι ps = ps.map (Pattern.mapIdents ι) := by
  induction ps with
  | nil => rfl
  | cons p ps ih => rw [Pattern.mapIdentsOfList, ih, List.map_cons]

/-- Mapping the properties of a list is mapping each. -/
lemma Property.mapIdentsOfList_eq_map (qs : List Property) :
    Property.mapIdentsOfList ι qs = qs.map (Property.mapIdents ι) := by
  induction qs with
  | nil => rfl
  | cons q qs ih => rw [Property.mapIdentsOfList, ih, List.map_cons]

/-- The elements of an array pattern are mapped one by one. -/
lemma Pattern.mapIdents_array (ps : List Pattern) :
    (Pattern.array ps).mapIdents ι = .array (ps.map (Pattern.mapIdents ι)) := by
  rw [Pattern.mapIdents, Pattern.mapIdentsOfList_eq_map]

/-- The properties of an object pattern are mapped one by one. -/
lemma Pattern.mapIdents_object (qs : List Property) :
    (Pattern.object qs).mapIdents ι = .object (qs.map (Property.mapIdents ι)) := by
  rw [Pattern.mapIdents, Property.mapIdentsOfList_eq_map]

end MapIdents

mutual

/-- Mapping no identifier changes nothing. -/
theorem Pattern.mapIdents_id : (p : Pattern) → p.mapIdents id = p
  | .name _ => rfl
  | .array ps => congrArg Pattern.array (Pattern.mapIdentsOfList_id ps)
  | .object qs => congrArg Pattern.object (Property.mapIdentsOfList_id qs)
  | .rest p => congrArg Pattern.rest p.mapIdents_id
  | .withDefault p => congrArg Pattern.withDefault p.mapIdents_id
  | .expression assigned => congrArg Pattern.expression (Option.map_id_apply (x := assigned))

/-- Mapping by the identity changes no pattern of a list. -/
theorem Pattern.mapIdentsOfList_id : (ps : List Pattern) → Pattern.mapIdentsOfList id ps = ps
  | [] => rfl
  | p :: ps => congrArg₂ List.cons p.mapIdents_id (Pattern.mapIdentsOfList_id ps)

/-- Mapping by the identity changes no property. -/
theorem Property.mapIdents_id : (q : Property) → q.mapIdents id = q
  | .keyed p => congrArg Property.keyed p.mapIdents_id
  | .shorthand _ _ => rfl
  | .rest p => congrArg Property.rest p.mapIdents_id

/-- Mapping by the identity changes no property of a list. -/
theorem Property.mapIdentsOfList_id : (qs : List Property) → Property.mapIdentsOfList id qs = qs
  | [] => rfl
  | q :: qs => congrArg₂ List.cons q.mapIdents_id (Property.mapIdentsOfList_id qs)

end

/-- Maps the identifier of which a declarator reads an element, and those that it binds. -/
def Declarator.mapIdents (ι : Ident → Ident) (d : Declarator) : Declarator where
  target := d.target.mapIdents ι
  elementOf := d.elementOf.map ι

/-- Maps the identifiers of the head of a loop. -/
def ForHead.mapIdents (ι : Ident → Ident) : ForHead → ForHead
  | .declaration first => .declaration (first.map (Pattern.mapIdents ι))
  | .pattern p => .pattern (p.mapIdents ι)

/-- Mapping by the identity changes no declarator. -/
lemma Declarator.mapIdents_id (d : Declarator) : d.mapIdents id = d := by
  rw [Declarator.mapIdents, Pattern.mapIdents_id, Option.map_id_apply]

/-- Mapping by the identity changes no head of a loop. -/
lemma ForHead.mapIdents_id (h : ForHead) : h.mapIdents id = h := by
  cases h with
  | declaration first =>
    have hpattern : Pattern.mapIdents id = id := funext Pattern.mapIdents_id
    rw [ForHead.mapIdents, hpattern, Option.map_id_apply]
  | pattern p => rw [ForHead.mapIdents, Pattern.mapIdents_id]

/-! ### Contexts hold names only -/

section Names

variable {ι : Ident → Ident} (hname : ∀ x, (ι x).name = x.name)

/-- Maps the identifiers at and below a place. -/
def Place.mapIdents (ι : Ident → Ident) : Place → Place
  | .pattern p => .pattern (p.mapIdents ι)
  | .property q => .property (q.mapIdents ι)
  | .defaulted x => .defaulted (ι x)
  | .name x => .name (ι x)

/-- The places below a mapped place are the mapped places below it. -/
lemma Place.children_mapIdents (ι : Ident → Ident) (place : Place) :
    (place.mapIdents ι).children = place.children.map (Place.mapIdents ι) := by
  match place with
  | .pattern (.array ps) =>
    rw [Place.mapIdents, Pattern.mapIdents_array, Place.children, Place.children, List.map_map,
      List.map_map]
    rfl
  | .pattern (.object qs) =>
    rw [Place.mapIdents, Pattern.mapIdents_object, Place.children, Place.children, List.map_map,
      List.map_map]
    rfl
  | .pattern (.name _) | .pattern (.rest _) | .pattern (.withDefault _)
  | .pattern (.expression _) | .property (.keyed _) | .property (.rest _)
  | .property (.shorthand _ true) | .property (.shorthand _ false) | .defaulted _ | .name _ => rfl

include hname

/-- A mapped place has the names of the place. -/
lemma Place.names_mapIdents (place : Place) : (place.mapIdents ι).names = place.names := by
  match place with
  | .pattern (.name x) | .name x => exact congrArg (fun n => [n]) (hname x)
  | .pattern (.array _) | .pattern (.object _) | .pattern (.rest _) | .pattern (.withDefault _)
  | .pattern (.expression _) | .property _ | .defaulted _ => rfl

/-- The search finds the same names in the same order. -/
lemma Place.levelNames_mapIdents (places : List Place) :
    Place.levelNames (places.map (Place.mapIdents ι)) = Place.levelNames places := by
  fun_induction Place.levelNames places with
  | case1 => rw [List.map_nil, Place.levelNames]
  | case2 place waiting ih =>
    rw [List.map_append] at ih
    rw [List.map_cons, Place.levelNames, Place.names_mapIdents hname, Place.children_mapIdents, ih]

/-- A mapped pattern binds the names of the pattern. -/
lemma Pattern.bindingNames_mapIdents (p : Pattern) :
    (p.mapIdents ι).bindingNames = p.bindingNames :=
  Place.levelNames_mapIdents hname [.pattern p]

namespace BindingContext

/-- A mapped pattern gives the context of the pattern. -/
lemma ofPattern_mapIdents (p : Pattern) : ofPattern (p.mapIdents ι) = ofPattern p := by
  fun_induction ofPattern p with
  | case1 x => exact congrArg simple (hname x)
  | case2 ps => exact congrArg tuple (Pattern.bindingNames_mapIdents hname (.array ps))
  | case3 qs => exact congrArg structured (Pattern.bindingNames_mapIdents hname (.object qs))
  | case4 p ih => exact ih
  | case5 p => rfl
  | case6 assigned => rfl

/-- A mapped identifier that is assigned gives the context of the identifier. -/
lemma ofAssigned_map (assigned : Option Ident) :
    ofAssigned (assigned.map ι) = ofAssigned assigned := by
  cases assigned with
  | none => rfl
  | some x => exact congrArg simple (hname x)

/-- A mapped target of an assignment gives the context of the target. -/
lemma ofAssignTarget_mapIdents (p : Pattern) :
    ofAssignTarget (p.mapIdents ι) = ofAssignTarget p := by
  cases p with
  | name x => exact congrArg simple (hname x)
  | array ps => exact congrArg tuple (Pattern.bindingNames_mapIdents hname (.array ps))
  | object qs => exact congrArg structured (Pattern.bindingNames_mapIdents hname (.object qs))
  | expression assigned => exact ofAssigned_map hname assigned
  | withDefault p | rest p => rfl

/-- A mapped head of a loop gives the context of the head. -/
lemma ofForHead_mapIdents (h : ForHead) : ofForHead (h.mapIdents ι) = ofForHead h := by
  match h with
  | .declaration none => rfl
  | .declaration (some p) => exact ofPattern_mapIdents hname p
  | .pattern (.expression assigned) => exact ofAssigned_map hname assigned
  | .pattern (.name x) => exact ofPattern_mapIdents hname (.name x)
  | .pattern (.array ps) => exact ofPattern_mapIdents hname (.array ps)
  | .pattern (.object qs) => exact ofPattern_mapIdents hname (.object qs)
  | .pattern (.rest p) => exact ofPattern_mapIdents hname (.rest p)
  | .pattern (.withDefault p) => exact ofPattern_mapIdents hname (.withDefault p)

variable (hinj : Function.Injective ι)

include hinj

/-- The siblings that read an element of a declarator's identifier still do, and no others. -/
lemma elementNames_mapIdents (tmp : Ident) (ds : List Declarator) :
    elementNames (ι tmp) (ds.map (Declarator.mapIdents ι)) = elementNames tmp ds := by
  have hread : ∀ d : Declarator, (d.elementOf.map ι = some (ι tmp)) ↔ d.elementOf = some tmp := by
    intro d
    rw [← Option.map_some, (Option.map_injective hinj).eq_iff]
  rw [elementNames, elementNames, List.filterMap_map]
  congr 1
  funext d
  obtain ⟨target, elementOf⟩ := d
  have hread := hread ⟨target, elementOf⟩
  cases target with
  | name x => simp only [Function.comp_apply, Declarator.mapIdents, Pattern.mapIdents, hread, hname]
  | _ => rfl

/-- A declarator that is mapped with those behind it gives the context that it gave. -/
lemma ofDeclarator_mapIdents (d : Declarator) (later : List Declarator) :
    ofDeclarator (d.mapIdents ι) (later.map (Declarator.mapIdents ι)) = ofDeclarator d later := by
  obtain ⟨target, elementOf⟩ := d
  have hpattern := ofPattern_mapIdents hname target
  cases target with
  | name tmp =>
    have helements := elementNames_mapIdents hname hinj tmp later
    simp only [ofDeclarator, Declarator.mapIdents, Pattern.mapIdents, helements, hname]
  | _ => exact hpattern

/-- Each declarator of a mapped declaration gives the context that it gave. -/
lemma ofDeclarators_mapIdents (ds : List Declarator) (index : Nat) :
    ofDeclarators (ds.map (Declarator.mapIdents ι)) index = ofDeclarators ds index := by
  rw [ofDeclarators, ofDeclarators, ← List.map_drop]
  cases ds.drop index with
  | nil => rfl
  | cons d later => exact ofDeclarator_mapIdents hname hinj d later

end BindingContext

end Names

/-! ### Reading a changed tree -/

namespace Tree

/-- Whether a tree has no parts. -/
def isLeaf : Tree → Bool
  | node _ _ | list _ => false
  | _ => true

/-- A reading of a tree that looks no further than its root: it sees the kind of a node, but neither
its fields nor the items of a list. -/
structure ReadsRoot {β : Type} (g : Tree → β) : Prop where
  node : ∀ kind fs fs', g (node kind fs) = g (node kind fs')
  list : ∀ ts ts', g (list ts) = g (list ts')

/-- The root tells whether a tree has no parts. -/
lemma readsRoot_isLeaf : ReadsRoot isLeaf := ⟨fun _ _ _ => rfl, fun _ _ => rfl⟩

/-- The root tells whether a tree stands for an absent part. -/
lemma readsRoot_isNull : ReadsRoot isNull := ⟨fun _ _ _ => rfl, fun _ _ => rfl⟩

/-- The root tells whether a flag is set. -/
lemma readsRoot_isTrue : ReadsRoot isTrue := ⟨fun _ _ _ => rfl, fun _ _ => rfl⟩

/-- The root tells the text of a string. -/
lemma readsRoot_text : ReadsRoot text := ⟨fun _ _ _ => rfl, fun _ _ => rfl⟩

/-- The root tells the value of a whole number. -/
lemma readsRoot_natural : ReadsRoot natural := ⟨fun _ _ _ => rfl, fun _ _ => rfl⟩

/-- The root tells whether a tree is a numeric literal. -/
lemma readsRoot_isNumericLiteral : ReadsRoot isNumericLiteral :=
  ⟨fun kind _ _ => by cases kind <;> rfl, fun _ _ => rfl⟩

/-- A change `F` of trees that keeps how they read.  It changes a node in its fields only, by `G`;
there the identifier that the fields spell is mapped by `ι`, and the parts of the node are changed
by `F`, apart from the syntax context and the slots of an owner; of a field called `value`, which may
be a slot, the root stays as it is. -/
structure KeepsReadings (F : Tree → Tree) (G : Kind → Fields → Fields) (ι : Ident → Ident) :
    Prop where
  leaf : ∀ t, t.isLeaf → F t = t
  list : ∀ ts, F (list ts) = list (ts.map F)
  node : ∀ kind fs, F (node kind fs) = node kind (G kind fs)
  part : ∀ kind fs name, name ≠ "ctxt" → (name ∉ slotNames ∨ kind.isOwner = false) →
    field name (G kind fs) = F (field name fs)
  value : ∀ {β : Type} {g : Tree → β}, ReadsRoot g → ∀ kind fs,
    g (field "value" (G kind fs)) = g (field "value" fs)
  spelled : ∀ kind fs, Ident.ofFields (G kind fs) = ι (Ident.ofFields fs)
  unspelled : ι (Ident.ofFields []) = Ident.ofFields []

/-- Only a node can be an assigned name. -/
lemma assigned?_of_not_node {t : Tree} (h : ∀ kind fs, t ≠ node kind fs) : t.assigned? = none := by
  cases t with
  | node kind fs => exact absurd rfl (h kind fs)
  | _ => rw [assigned?] <;> simp

/-- An identifier is a pattern that binds it. -/
lemma pattern_of_ident? {t : Tree} {x : Ident} (h : t.ident? = some x) : t.pattern = .name x := by
  unfold ident? at h
  split at h
  · rw [pattern, Option.some.inj h]
  · cases h

/-- No other tree is a pattern that is a bare name. -/
lemma ident?_of_pattern {t : Tree} {x : Ident} (h : t.pattern = .name x) : t.ident? = some x := by
  unfold pattern at h
  split at h <;> simp_all [ident?]

/-- A node of another kind than those of patterns reads as an expression. -/
lemma pattern_of_not_pattern {kind : Kind}
    (h : kind ∉ [Kind.identifier, .arrayPattern, .objectPattern, .restElement, .assignmentPattern])
    (fs : Fields) : (node kind fs).pattern = .expression (node kind fs).assigned? := by
  rw [pattern]
  all_goals rintro gs ⟨rfl, -⟩; simp at h

/-- A node of another kind than those of properties reads as a property whose value is an
expression. -/
lemma property_of_not_property {kind : Kind}
    (h : kind ∉ [Kind.assignmentPatternProperty, .restElement, .keyValuePatternProperty])
    (fs : Fields) : (node kind fs).property = .keyed (.expression (node kind fs).assigned?) := by
  rw [property]
  all_goals rintro gs ⟨rfl, -⟩; simp at h

/-- A list is no pattern. -/
lemma pattern_list (ts : List Tree) : (list ts).pattern = .expression none := by
  rw [pattern, assigned?_of_not_node] <;> simp

/-- A list is no property of a pattern. -/
lemma property_list (ts : List Tree) : (list ts).property = .keyed (.expression none) := by
  rw [property, assigned?_of_not_node] <;> simp

/-- A leaf is no pattern. -/
lemma pattern_of_isLeaf {t : Tree} (h : t.isLeaf) : t.pattern = .expression none := by
  cases t with
  | node kind fs | list ts => cases h
  | _ => rw [pattern, assigned?_of_not_node] <;> simp

/-- A leaf is no property of a pattern. -/
lemma property_of_isLeaf {t : Tree} (h : t.isLeaf) : t.property = .keyed (.expression none) := by
  cases t with
  | node kind fs | list ts => cases h
  | _ => rw [property, assigned?_of_not_node] <;> simp

/-- What stands in front of a loop and declares nothing is a pattern that is assigned to. -/
lemma forHead_of_not_declaration {kind : Kind} (hv : kind ≠ .variableDeclaration)
    (hu : kind ≠ .usingDeclaration) (fs : Fields) :
    (node kind fs).forHead = .pattern (node kind fs).pattern := by
  cases kind <;> first | rfl | exact absurd rfl hv | exact absurd rfl hu

namespace KeepsReadings

variable {F : Tree → Tree} {G : Kind → Fields → Fields} {ι : Ident → Ident}
  (hF : KeepsReadings F G ι)

include hF

/-- An absent part stays absent. -/
lemma null : F Tree.null = Tree.null := hF.leaf .null rfl

/-- A part of a node that is no slot is changed as a tree of its own. -/
lemma field_of_not_slot (kind : Kind) (fs : Fields) {name : String} (hctxt : name ≠ "ctxt")
    (h : name ∉ slotNames) : field name (G kind fs) = F (field name fs) :=
  hF.part kind fs name hctxt (.inl h)

/-- A field that is neither the syntax context nor a slot becomes what the mapping makes of it. -/
lemma get {name : String} (hctxt : name ≠ "ctxt") (h : name ∉ slotNames) (t : Tree) :
    (F t).get name = F (t.get name) := by
  cases t with
  | node kind fs => rw [hF.node]; exact hF.field_of_not_slot kind fs hctxt h
  | list ts => rw [hF.list]; exact hF.null.symm
  | _ => rw [hF.leaf _ rfl]; exact hF.null.symm

/-- The items of a list are mapped one by one. -/
lemma items (t : Tree) : (F t).items = t.items.map F := by
  cases t with
  | list ts => rw [hF.list]; rfl
  | node kind fs => rw [hF.node]; rfl
  | _ => rw [hF.leaf _ rfl]; rfl

/-- What is read off the root of a tree stays as it is. -/
lemma root {β : Type} {g : Tree → β} (hg : ReadsRoot g) (t : Tree) : g (F t) = g t := by
  cases t with
  | list ts => rw [hF.list, hg.list]
  | node kind fs => rw [hF.node, hg.node]
  | _ => rw [hF.leaf _ rfl]

/-! ### Parentheses -/

/-- What stands in no parentheses of its own does not get any. -/
lemma ne_paren {t : Tree} (h : ∀ fs, t ≠ .node .parenthesisExpression fs) (fs : Fields) :
    F t ≠ .node .parenthesisExpression fs := by
  cases t with
  | node kind gs =>
    rw [hF.node]
    rintro ⟨rfl, -⟩
    exact h gs rfl
  | list ts => rw [hF.list]; simp
  | _ => rw [hF.leaf _ rfl]; exact h fs

/-- Parentheses stay, so what is under them is mapped. -/
lemma unparenthesized (t : Tree) : (F t).unparenthesized = F t.unparenthesized := by
  fun_induction Tree.unparenthesized t with
  | case1 fs ih =>
    have hexpression : field "expression" (G .parenthesisExpression fs) =
        F (field "expression" fs) := hF.field_of_not_slot _ fs (by decide) (by decide)
    rw [hF.node, unparenthesized_paren, hexpression, ih]
  | case2 t ht => exact unparenthesized_of_ne_paren (hF.ne_paren ht)

/-! ### Identifiers -/

/-- An identifier becomes the renamed identifier, and nothing else becomes one. -/
lemma ident? (t : Tree) : (F t).ident? = t.ident?.map ι := by
  cases t with
  | node kind fs =>
    rw [hF.node]
    cases kind with
    | identifier => exact congrArg some (hF.spelled .identifier fs)
    | _ => rfl
  | list ts => rw [hF.list]; rfl
  | _ => rw [hF.leaf _ rfl]; rfl

/-- The fields of an identifier spell the renamed identifier. -/
lemma ofFields_fields (t : Tree) : Ident.ofFields (F t).fields = ι (Ident.ofFields t.fields) := by
  cases t with
  | node kind fs => rw [hF.node]; exact hF.spelled kind fs
  | list ts => rw [hF.list]; exact hF.unspelled.symm
  | _ => rw [hF.leaf _ rfl]; exact hF.unspelled.symm

/-- A call of a bare name stays one, of the renamed name. -/
lemma callee? (t : Tree) : (F t).callee? = t.callee?.map ι := by
  cases t with
  | node kind fs =>
    rw [hF.node]
    cases kind with
    | callExpression =>
      have hcallee : field "callee" (G .callExpression fs) = F (field "callee" fs) :=
        hF.field_of_not_slot _ fs (by decide) (by decide)
      show (field "callee" (G .callExpression fs)).ident? = _
      rw [hcallee, hF.ident?]
      rfl
    | _ => rfl
  | list ts => rw [hF.list]; rfl
  | _ => rw [hF.leaf _ rfl]; rfl

/-- The owned call that an expression is, if it is one. -/
lemma ownedCall? (context : BindingContext) (t : Tree) :
    (F t).ownedCall? context =
      (t.ownedCall? context).map fun c => { c with callee := ι c.callee } := by
  rw [Tree.ownedCall?, Tree.ownedCall?, hF.unparenthesized, hF.callee?, Option.map_map,
    Option.map_map]
  rfl

/-- The identifier whose element an expression reads. -/
lemma elementOf? (t : Tree) : (F t).elementOf? = t.elementOf?.map ι := by
  cases t with
  | node kind fs =>
    rw [hF.node]
    cases kind with
    | memberExpression =>
      have hobject : field "object" (G .memberExpression fs) = F (field "object" fs) :=
        hF.field_of_not_slot _ fs (by decide) (by decide)
      have hproperty : field "property" (G .memberExpression fs) = F (field "property" fs) :=
        hF.field_of_not_slot _ fs (by decide) (by decide)
      simp only [Tree.elementOf?, hobject, hproperty, hF.ident?]
      cases field "property" fs with
      | node k ps =>
        rw [hF.node]
        cases k with
        | computed =>
          have hexpression : field "expression" (G .computed ps) = F (field "expression" ps) :=
            hF.field_of_not_slot _ ps (by decide) (by decide)
          simp only [hexpression, hF.root readsRoot_isNumericLiteral]
          split <;> rfl
        | _ => rfl
      | list ts => rw [hF.list]; rfl
      | _ => rw [hF.leaf _ rfl]; rfl
    | _ => rfl
  | list ts => rw [hF.list]; rfl
  | _ => rw [hF.leaf _ rfl]; rfl

/-- The identifier that an assignment to an expression assigns. -/
lemma assigned? (t : Tree) : (F t).assigned? = t.assigned?.map ι := by
  fun_induction Tree.assigned? t with
  | case1 fs =>
    rw [hF.node, Tree.assigned?]
    exact congrArg some (hF.spelled .identifier fs)
  | case2 kind fs hk ht ih =>
    have hexpression : field "expression" (G kind fs) = F (field "expression" fs) :=
      hF.field_of_not_slot _ fs (by decide) (by decide)
    rw [hF.node, Tree.assigned?, if_pos ht, hexpression, ih]
    exact hk
  | case3 kind fs hk ht =>
    rw [hF.node, Tree.assigned?, if_neg ht]
    · rfl
    · exact hk
  | case4 t hid hnode =>
    cases t with
    | node kind fs => exact absurd rfl (hnode kind fs)
    | list ts => rw [hF.list]; exact assigned?_of_not_node nofun
    | _ => rw [hF.leaf _ rfl]; exact assigned?_of_not_node nofun

/-! ### Patterns -/

mutual

/-- The pattern that a tree reads as. -/
theorem pattern (t : Tree) : (F t).pattern = t.pattern.mapIdents ι := by
  match t with
  | .node kind fs =>
    by_cases hk : kind ∈
        [Kind.identifier, .arrayPattern, .objectPattern, .restElement, .assignmentPattern]
    · simp only [List.mem_cons, List.not_mem_nil, or_false] at hk
      rw [hF.node]
      rcases hk with rfl | rfl | rfl | rfl | rfl
      · rw [Tree.pattern, Tree.pattern, hF.spelled, Pattern.mapIdents]
      · have helements : field "elements" (G .arrayPattern fs) = F (field "elements" fs) :=
          hF.field_of_not_slot _ fs (by decide) (by decide)
        rw [pattern_array, pattern_array, helements, hF.items, Pattern.mapIdents_array,
          List.map_map, List.map_map]
        exact congrArg Pattern.array (List.map_congr_left fun u hu => pattern u)
      · have hproperties : field "properties" (G .objectPattern fs) = F (field "properties" fs) :=
          hF.field_of_not_slot _ fs (by decide) (by decide)
        rw [pattern_object, pattern_object, hproperties, hF.items, Pattern.mapIdents_object,
          List.map_map, List.map_map]
        exact congrArg Pattern.object (List.map_congr_left fun u hu => property u)
      · have hargument : field "argument" (G .restElement fs) = F (field "argument" fs) :=
          hF.field_of_not_slot _ fs (by decide) (by decide)
        rw [Tree.pattern, Tree.pattern, hargument, pattern, Pattern.mapIdents]
      · have hleft : field "left" (G .assignmentPattern fs) = F (field "left" fs) :=
          hF.field_of_not_slot _ fs (by decide) (by decide)
        rw [Tree.pattern, Tree.pattern, hleft, pattern, Pattern.mapIdents]
    · have hassigned := hF.assigned? (.node kind fs)
      rw [hF.node] at hassigned ⊢
      rw [pattern_of_not_pattern hk, pattern_of_not_pattern hk, hassigned, Pattern.mapIdents]
  | .list ts => rw [hF.list, pattern_list, pattern_list]; rfl
  | .null | .bool b | .num m d | .str s => rw [hF.leaf _ rfl, pattern_of_isLeaf rfl]; rfl
termination_by sizeOf t
decreasing_by
  · exact Nat.lt_trans (sizeOf_lt_of_mem_items hu) (sizeOf_field_lt ..)
  · exact Nat.lt_trans (sizeOf_lt_of_mem_items hu) (sizeOf_field_lt ..)
  · exact sizeOf_field_lt ..
  · exact sizeOf_field_lt ..

/-- The property that a tree reads as. -/
theorem property (t : Tree) : (F t).property = t.property.mapIdents ι := by
  match t with
  | .node kind fs =>
    by_cases hk : kind ∈ [Kind.assignmentPatternProperty, .restElement, .keyValuePatternProperty]
    · simp only [List.mem_cons, List.not_mem_nil, or_false] at hk
      rw [hF.node]
      rcases hk with rfl | rfl | rfl
      · have hkey : field "key" (G .assignmentPatternProperty fs) = F (field "key" fs) :=
          hF.field_of_not_slot _ fs (by decide) (by decide)
        rw [Tree.property, Tree.property, hkey, hF.ofFields_fields,
          hF.value readsRoot_isNull, Property.mapIdents]
      · have hargument : field "argument" (G .restElement fs) = F (field "argument" fs) :=
          hF.field_of_not_slot _ fs (by decide) (by decide)
        rw [Tree.property, Tree.property, hargument, pattern, Property.mapIdents]
      · have hvalue : field "value" (G .keyValuePatternProperty fs) = F (field "value" fs) :=
          hF.part _ fs "value" (by decide) (.inr rfl)
        rw [Tree.property, Tree.property, hvalue, pattern, Property.mapIdents]
    · have hassigned := hF.assigned? (.node kind fs)
      rw [hF.node] at hassigned ⊢
      rw [property_of_not_property hk, property_of_not_property hk, hassigned, Property.mapIdents,
        Pattern.mapIdents]
  | .list ts => rw [hF.list, property_list, property_list]; rfl
  | .null | .bool b | .num m d | .str s => rw [hF.leaf _ rfl, property_of_isLeaf rfl]; rfl
termination_by sizeOf t
decreasing_by
  · exact sizeOf_field_lt ..
  · exact sizeOf_field_lt ..

end

/-! ### Declarators and heads of loops -/

/-- The declarator that a tree reads as. -/
lemma declarator (d : Tree) : (F d).declarator = d.declarator.mapIdents ι := by
  have hid : (F d).get "id" = F (d.get "id") := hF.get (by decide) (by decide) d
  have hinit : (F d).get "init" = F (d.get "init") := hF.get (by decide) (by decide) d
  rw [Tree.declarator, Tree.declarator, Declarator.mapIdents, hid, hinit, hF.pattern,
    hF.elementOf?]

/-- The declarators of a list are read as the renamed ones. -/
lemma map_declarator (ds : List Tree) :
    (ds.map F).map Tree.declarator = (ds.map Tree.declarator).map (Declarator.mapIdents ι) := by
  rw [List.map_map, List.map_map]
  exact List.map_congr_left fun d _ => hF.declarator d

/-- The head of a loop that a tree reads as, if the declarators of a declaration read as they should
in spite of being a slot. -/
lemma forHead (hdeclarators : ∀ fs,
      (field "declarations" (G .variableDeclaration fs)).items.map Tree.declarator =
        ((field "declarations" fs).items.map Tree.declarator).map (Declarator.mapIdents ι))
    (t : Tree) : (F t).forHead = t.forHead.mapIdents ι := by
  have hfirst : ∀ ds es : List Tree, ds.map Tree.declarator =
      (es.map Tree.declarator).map (Declarator.mapIdents ι) →
      (ds.head?.map fun d => d.declarator.target) =
        (es.head?.map fun d => d.declarator.target).map (Pattern.mapIdents ι) := by
    intro ds es h
    cases ds with
    | nil => cases es with
      | nil => rfl
      | cons e es => cases h
    | cons d ds => cases es with
      | nil => cases h
      | cons e es => exact congrArg (fun d => some d.target) (List.cons.inj h).1
  cases t with
  | node kind fs =>
    by_cases hv : kind = .variableDeclaration
    · subst hv
      rw [hF.node, Tree.forHead, Tree.forHead, ForHead.mapIdents, hfirst _ _ (hdeclarators fs)]
    · by_cases hu : kind = .usingDeclaration
      · subst hu
        have hdecls : field "decls" (G .usingDeclaration fs) = F (field "decls" fs) :=
          hF.field_of_not_slot _ fs (by decide) (by decide)
        have hmap := hF.map_declarator (field "decls" fs).items
        rw [← hF.items, ← hdecls] at hmap
        rw [hF.node, Tree.forHead, Tree.forHead, ForHead.mapIdents, hfirst _ _ hmap]
      · have hpattern := hF.pattern (.node kind fs)
        rw [hF.node] at hpattern ⊢
        rw [forHead_of_not_declaration hv hu, forHead_of_not_declaration hv hu, hpattern,
          ForHead.mapIdents]
  | list ts =>
    have hpattern := hF.pattern (.list ts)
    rw [hF.list] at hpattern ⊢
    exact congrArg ForHead.pattern hpattern
  | _ =>
    rw [hF.leaf _ rfl]
    exact congrArg ForHead.pattern (by rw [pattern_of_isLeaf rfl]; rfl)

/-- The context of what a node owns is read off its fields as before: contexts hold names only. -/
lemma slotContext (hname : ∀ x, (ι x).name = x.name)
    (hhead : ∀ t, (F t).forHead = t.forHead.mapIdents ι) (kind : Kind) (fs : Fields) :
    Tree.slotContext kind (G kind fs) = Tree.slotContext kind fs := by
  have hleft : field "left" (G kind fs) = F (field "left" fs) :=
    hF.field_of_not_slot _ fs (by decide) (by decide)
  have hkey : field "key" (G kind fs) = F (field "key" fs) :=
    hF.field_of_not_slot _ fs (by decide) (by decide)
  cases kind with
  | assignmentExpression =>
    simp only [Tree.slotContext, hleft, hF.pattern,
      BindingContext.ofAssignTarget_mapIdents hname]
  | assignmentPattern =>
    simp only [Tree.slotContext, hleft, hF.pattern, BindingContext.ofPattern_mapIdents hname]
  | forOfStatement | forInStatement =>
    simp only [Tree.slotContext, hleft, hhead, BindingContext.ofForHead_mapIdents hname]
  | assignmentPatternProperty =>
    simp only [Tree.slotContext, hkey, hF.ofFields_fields, hname]
  | _ => rfl

/-! ### Imports -/

/-- The text that a literal holds stays. -/
lemma text_get_value (t : Tree) : ((F t).get "value").text = (t.get "value").text := by
  cases t with
  | node kind fs => rw [hF.node]; exact hF.value readsRoot_text kind fs
  | list ts => rw [hF.list]; rfl
  | _ => rw [hF.leaf _ rfl]

/-- A specifier binds the renamed identifier. -/
lemma boundBySpecifier? (t : Tree) : (F t).boundBySpecifier? = t.boundBySpecifier?.map ι := by
  have hlocal : ∀ kind fs, field "local" (G kind fs) = F (field "local" fs) :=
    fun kind fs => hF.field_of_not_slot kind fs (by decide) (by decide)
  cases t with
  | node kind fs =>
    rw [hF.node]
    cases kind with
    | importSpecifier =>
      have htype : field "isTypeOnly" (G .importSpecifier fs) = F (field "isTypeOnly" fs) :=
        hF.field_of_not_slot _ fs (by decide) (by decide)
      simp only [Tree.boundBySpecifier?, htype, hF.root readsRoot_isTrue, hlocal, hF.ident?]
      split <;> rfl
    | importDefaultSpecifier | importNamespaceSpecifier =>
      simp only [Tree.boundBySpecifier?, hlocal, hF.ident?]
    | _ => rfl
  | list ts => rw [hF.list]; rfl
  | _ => rw [hF.leaf _ rfl]; rfl

/-- An import declaration binds the mapped identifiers, each to its module. -/
lemma importedBindings (fs : Fields) :
    HookLabel.importedBindings (G .importDeclaration fs) =
      (HookLabel.importedBindings fs).map fun p => (ι p.1, p.2) := by
  have hpart : ∀ name, name ≠ "ctxt" → field name (G .importDeclaration fs) = F (field name fs) :=
    fun name hctxt => hF.part _ fs name hctxt (.inr rfl)
  unfold HookLabel.importedBindings
  rw [hpart "typeOnly" (by decide), hpart "specifiers" (by decide), hpart "source" (by decide),
    hF.root readsRoot_isTrue, hF.items, hF.text_get_value]
  split
  · rfl
  · rw [List.filterMap_map, List.map_filterMap]
    congr 1
    funext s
    rw [Function.comp_apply, hF.boundBySpecifier?, Option.map_map, Option.map_map]
    rfl

end KeepsReadings

end Tree

end HookLabel
