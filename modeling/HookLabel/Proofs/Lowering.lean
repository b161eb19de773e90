import HookLabel.Proofs.Passes

/-!
# Lowered array destructuring

An earlier tool may have lowered the destructuring of an array, `[a, , b] = value`, to a temporary
and the reads of its elements: `tmp = value, a = tmp[0], b = tmp[2]`.  `Tree.lowerDeclaration` does
that to chosen declarators of a declaration.

The context of a value does not see the difference.  The names that read elements of the temporary
are those that the pattern binds, so the value stands in the same context before and after
(`ofDeclarator_lower`), and as long as the temporaries are fresh no other declarator reads
differently among its siblings (`ofDeclarator_keep`).
-/

namespace HookLabel

namespace Tree

/-! ### Lowering -/

/-- A reference to an identifier; further fields may follow. -/
def identifierNode (x : Ident) (more : Fields) : Tree :=
  node .identifier
    ([("ctxt", num x.ctxt 0), ("value", str x.name), ("optional", bool false)] ++ more)

/-- The expression `tmp[i]`. -/
def elementRead (tmp : Ident) (i : Nat) : Tree :=
  node .memberExpression
    [("object", identifierNode tmp []),
      ("property", node .computed
        [("expression", node .numericLiteral [("value", num i 0), ("raw", null)])])]

/-- The declarator `target = tmp[i]`. -/
def readDeclarator (tmp : Ident) (i : Nat) (target : Tree) : Tree :=
  node (.other "VariableDeclarator")
    [("id", target), ("init", elementRead tmp i), ("definite", bool false)]

/-- The declarators that read the elements which an array pattern binds, from the index `i` on. -/
def readDeclarators (tmp : Ident) (i : Nat) : List Tree → List Tree
  | [] => []
  | e :: es =>
    (if e.ident?.isSome then [readDeclarator tmp i e] else []) ++ readDeclarators tmp (i + 1) es

/-- The elements of the array pattern of a declarator. -/
def elements (d : Tree) : List Tree := ((d.get "id").get "elements").items

/-- Replaces the pattern of a declarator by a temporary. -/
def bindTemporary (tmp : Ident) : Tree → Tree
  | node kind fs => node kind (setField "id" (identifierNode tmp [("typeAnnotation", null)]) fs)
  | t => t

/-- Lowers the declarator `[e0, .., ek] = value` to `tmp = value` and the reads of its elements. -/
def lowerDeclarator (tmp : Ident) (d : Tree) : List Tree :=
  d.bindTemporary tmp :: readDeclarators tmp 0 d.elements

/-- Lowers those declarators of a list for which a temporary is chosen. -/
def lowerDeclarators : (choice : List (Option Ident)) → List Tree → List Tree
  | some tmp :: choice, d :: ds => d.lowerDeclarator tmp ++ lowerDeclarators choice ds
  | none :: choice, d :: ds => d :: lowerDeclarators choice ds
  | [], ds => ds
  | _, [] => []

/-- Lowers the chosen declarators of a declaration. -/
def lowerDeclaration (choice : List (Option Ident)) : Tree → Tree
  | node kind fs => node kind (modifyField "declarations" (mapItems (lowerDeclarators choice)) fs)
  | t => t

/-! ### What can be lowered -/

/-- A declarator `[e0, .., ek] = value` whose elements are holes and plain identifiers, one of them
at least, and whose value is a call, possibly in parentheses.  Nothing else in the pattern, such as
a type annotation, owns a call. -/
structure Destructures (d : Tree) : Prop where
  isDeclarator : ∃ fs, d = node (.other "VariableDeclarator") fs
  isArray : ∃ ps, d.get "id" = node .arrayPattern ps
  plain : ∀ e ∈ d.elements, e = null ∨ ∃ fs, e = node .identifier fs
  binds : ∃ e ∈ d.elements, e.ident?.isSome
  ownsNothing : (d.get "id").ownedCalls = []
  isCall : ∃ fs, (d.get "init").unparenthesized = node .callExpression fs

/-- The temporaries of a choice. -/
def temporaries (choice : List (Option Ident)) : List Ident := choice.filterMap id

/-- A temporary that none of the declarators binds as a whole, and of which none reads an element. -/
def IsFresh (ds : List Tree) (tmp : Ident) : Prop :=
  ∀ d ∈ ds, d.declarator.target ≠ .name tmp ∧ d.declarator.elementOf ≠ some tmp

/-- The chosen declarators can be lowered, by fresh temporaries of which no two are the same. -/
structure CanLower (choice : List (Option Ident)) (ds : List Tree) : Prop where
  destructures : ∀ p ∈ choice.zip ds, p.1.isSome → p.2.Destructures
  distinct : (temporaries choice).Nodup
  fresh : ∀ tmp ∈ temporaries choice, IsFresh ds tmp

namespace CanLower

variable {choice : List (Option Ident)} {ds : List Tree}

/-- So can those behind the first declarator. -/
lemma tail {chosen : Option Ident} {d : Tree} (h : CanLower (chosen :: choice) (d :: ds)) :
    CanLower choice ds := by
  have hsublist : (temporaries choice).Sublist (temporaries (chosen :: choice)) :=
    (List.sublist_cons_self chosen choice).filterMap id
  refine ⟨fun p hp => h.destructures p ?_, h.distinct.sublist hsublist, fun tmp htmp e he => ?_⟩
  · rw [List.zip_cons_cons]
    exact List.mem_cons_of_mem _ hp
  · exact h.fresh tmp (hsublist.subset htmp) e (List.mem_cons_of_mem d he)

variable {tmp : Ident} {d : Tree}

/-- A declarator that is lowered destructures the value of a call. -/
lemma head (h : CanLower (some tmp :: choice) (d :: ds)) : d.Destructures := by
  refine h.destructures (some tmp, d) ?_ rfl
  rw [List.zip_cons_cons]
  exact List.mem_cons_self

/-- Its temporary is not used for another one. -/
lemma head_notMem (h : CanLower (some tmp :: choice) ds) : tmp ∉ temporaries choice :=
  (List.nodup_cons.mp h.distinct).1

/-- Its temporary does not occur in the declaration. -/
lemma head_fresh (h : CanLower (some tmp :: choice) (d :: ds)) : IsFresh ds tmp :=
  fun e he => h.fresh tmp List.mem_cons_self e (List.mem_cons_of_mem d he)

end CanLower

/-! ### The declarators that lowering makes -/

/-- No declarators are lowered to none. -/
lemma lowerDeclarators_nil (choice : List (Option Ident)) : lowerDeclarators choice [] = [] := by
  unfold lowerDeclarators
  split <;> first | rfl | contradiction

/-- An identifier node is the identifier that it spells. -/
lemma ident?_identifierNode (x : Ident) (more : Fields) : (identifierNode x more).ident? = some x := by
  simp [identifierNode, ident?, Ident.ofFields, field, text, natural]

/-- A temporary owns nothing. -/
lemma ownedCalls_temporary (tmp : Ident) :
    (identifierNode tmp [("typeAnnotation", null)]).ownedCalls = [] := rfl

/-- A read of an element reads an element of the temporary. -/
lemma elementOf?_elementRead (tmp : Ident) (i : Nat) : (elementRead tmp i).elementOf? = some tmp :=
  ident?_identifierNode tmp []

/-- A declarator of an element binds its name to an element of the temporary. -/
lemma declarator_readDeclarator (tmp : Ident) (i : Nat) {e : Tree} {x : Ident}
    (h : e.ident? = some x) : (readDeclarator tmp i e).declarator = ⟨.name x, some tmp⟩ := by
  have hinit : ((readDeclarator tmp i e).get "init").elementOf? = some tmp :=
    elementOf?_elementRead tmp i
  rw [declarator, hinit]
  exact congrArg (fun p => Declarator.mk p (some tmp)) (pattern_of_ident? h)

/-- The reads bind the identifiers among the elements, each to an element of the temporary. -/
lemma map_declarator_readDeclarators (tmp : Ident) (i : Nat) (es : List Tree) :
    (readDeclarators tmp i es).map declarator =
      (es.filterMap ident?).map fun x => ⟨.name x, some tmp⟩ := by
  induction es generalizing i with
  | nil => rfl
  | cons e es ih =>
    rw [readDeclarators, List.map_append, ih, List.filterMap_cons]
    cases h : e.ident? with
    | none => rfl
    | some x =>
      rw [if_pos (by rfl), List.map_singleton, declarator_readDeclarator tmp i h]
      rfl

/-- Each declarator of an element is made of one of the elements. -/
lemma mem_readDeclarators {tmp : Ident} {i : Nat} {es : List Tree} {r : Tree}
    (h : r ∈ readDeclarators tmp i es) : ∃ j, ∃ e ∈ es, r = readDeclarator tmp j e := by
  induction es generalizing i with
  | nil => cases h
  | cons e es ih =>
    rw [readDeclarators, List.mem_append] at h
    rcases h with h | h
    · split at h
      · exact ⟨i, e, List.mem_cons_self, List.mem_singleton.mp h⟩
      · cases h
    · obtain ⟨j, e', he', hr⟩ := ih h
      exact ⟨j, e', List.mem_cons_of_mem e he', hr⟩

/-! ### What a chosen declarator reads as -/

/-- A call reads no element. -/
lemma elementOf?_of_isCall {t : Tree} (h : ∃ fs, t.unparenthesized = node .callExpression fs) :
    t.elementOf? = none := by
  obtain ⟨cs, hcall⟩ := h
  by_cases hp : ∃ fs, t = node .parenthesisExpression fs
  · obtain ⟨fs, rfl⟩ := hp
    rfl
  · rw [unparenthesized_of_ne_paren fun fs h => hp ⟨fs, h⟩] at hcall
    rw [hcall]
    rfl

namespace Destructures

variable {d : Tree} (hd : d.Destructures)

include hd

/-- The names that the pattern binds, from left to right. -/
lemma target_eq : d.declarator.target = .array (d.elements.map pattern) := by
  obtain ⟨ps, hps⟩ := hd.isArray
  rw [declarator, elements, hps, pattern_array]
  rfl

/-- A declarator that is lowered does not read an element of another one. -/
lemma elementOf_eq : d.declarator.elementOf = none := elementOf?_of_isCall hd.isCall

/-- It has a target. -/
lemma id_ne_null : d.get "id" ≠ null := by
  obtain ⟨ps, hps⟩ := hd.isArray
  rw [hps]
  nofun

/-- Its target becomes the temporary. -/
lemma get_id_bindTemporary (tmp : Ident) :
    (d.bindTemporary tmp).get "id" = identifierNode tmp [("typeAnnotation", null)] := by
  have hid := hd.id_ne_null
  obtain ⟨fs, rfl⟩ := hd.isDeclarator
  exact field_setField hid _

omit hd in
/-- Its initialiser stays. -/
lemma get_init_bindTemporary (tmp : Ident) : (d.bindTemporary tmp).get "init" = d.get "init" := by
  cases d with
  | node kind fs =>
    have hne : "init" ≠ "id" := by decide
    exact field_setField_of_ne hne _ fs
  | _ => rfl

/-- So it becomes a declarator that binds the temporary. -/
lemma declarator_bindTemporary (tmp : Ident) :
    (d.bindTemporary tmp).declarator = ⟨.name tmp, none⟩ := by
  rw [declarator, hd.get_id_bindTemporary, get_init_bindTemporary, elementOf?_of_isCall hd.isCall,
    pattern_of_ident? (ident?_identifierNode ..)]

end Destructures

end Tree

/-! ### Contexts -/

/-- A search through places with nothing below them finds what lies at them. -/
lemma Place.levelNames_of_children_eq_nil {places : List Place}
    (h : ∀ place ∈ places, place.children = []) :
    Place.levelNames places = places.flatMap Place.names := by
  induction places with
  | nil => rw [Place.levelNames]; rfl
  | cons place places ih =>
    rw [Place.levelNames, h place List.mem_cons_self, List.append_nil,
      ih fun p hp => h p (List.mem_cons_of_mem place hp), List.flatMap_cons]

namespace Tree

/-- The names that the pattern of a chosen declarator binds. -/
lemma Destructures.bindingNames_eq {d : Tree} (hd : d.Destructures) :
    d.declarator.target.bindingNames = (d.elements.filterMap ident?).map Ident.name := by
  have hplain : ∀ e ∈ d.elements, (Place.pattern e.pattern).children = [] ∧
      (Place.pattern e.pattern).names = (e.ident?.map Ident.name).toList := by
    intro e he
    rcases hd.plain e he with rfl | ⟨fs, rfl⟩
    · rw [pattern_of_isLeaf rfl]
      exact ⟨rfl, rfl⟩
    · rw [pattern_of_ident? (x := .ofFields fs) rfl]
      exact ⟨rfl, rfl⟩
  have hflat : ∀ place ∈ (d.elements.map pattern).map Place.pattern, place.children = [] := by
    intro place hplace
    obtain ⟨p, hp, rfl⟩ := List.mem_map.mp hplace
    obtain ⟨e, he, rfl⟩ := List.mem_map.mp hp
    exact (hplain e he).1
  have hsearch : (Pattern.array (d.elements.map pattern)).bindingNames =
      Place.levelNames ((d.elements.map pattern).map Place.pattern) := by
    rw [Pattern.bindingNames, Place.levelNames]
    rfl
  rw [hd.target_eq, hsearch, Place.levelNames_of_children_eq_nil hflat, List.map_map,
    List.flatMap_map, List.map_filterMap]
  generalize d.elements = es at hplain
  induction es with
  | nil => rfl
  | cons e es ih =>
    rw [List.flatMap_cons, ih fun e' he' => hplain e' (List.mem_cons_of_mem e he'),
      List.filterMap_cons, Function.comp_apply, (hplain e List.mem_cons_self).2]
    cases e.ident? <;> rfl

/-- So they are what the value of a chosen declarator is known by. -/
lemma Destructures.ofDeclarator_eq {d : Tree} (hd : d.Destructures) (later : List Declarator) :
    BindingContext.ofDeclarator d.declarator later =
      .tuple ((d.elements.filterMap ident?).map Ident.name) := by
  rw [← hd.bindingNames_eq, BindingContext.ofDeclarator, hd.target_eq]
  rfl

end Tree

namespace BindingContext

open HookLabel.Tree

/-- Elements are read off declarators in their order. -/
lemma elementNames_append (tmp : Ident) (ds es : List Declarator) :
    elementNames tmp (ds ++ es) = elementNames tmp ds ++ elementNames tmp es :=
  List.filterMap_append

/-- The names of declarators that all read elements of one identifier. -/
lemma elementNames_reads (x tmp : Ident) (xs : List Ident) :
    elementNames x (xs.map fun y => ⟨.name y, some tmp⟩) =
      if tmp = x then xs.map Ident.name else [] := by
  induction xs with
  | nil => rw [List.map_nil, List.map_nil, ite_self]; rfl
  | cons y xs ih =>
    rw [elementNames] at ih
    rw [List.map_cons, elementNames, List.filterMap_cons, ih]
    by_cases h : tmp = x <;> simp [h]

/-- A declarator that reads no element adds no name. -/
lemma elementNames_cons_of_none {d : Declarator} (h : d.elementOf = none) (x : Ident)
    (ds : List Declarator) : elementNames x (d :: ds) = elementNames x ds := by
  rw [elementNames, elementNames, List.filterMap_cons]
  cases d.target <;> simp [h]

/-- Of the later declarators, the context of a declarator depends on those that read elements of
what it binds. -/
lemma ofDeclarator_congr {d : Declarator} {later later' : List Declarator}
    (h : ∀ x, d.target = .name x → elementNames x later = elementNames x later') :
    ofDeclarator d later = ofDeclarator d later' := by
  unfold ofDeclarator
  cases htarget : d.target with
  | name x => simp only [h x htarget]
  | _ => rfl

/-- Nothing reads elements of an identifier if no declarator does. -/
lemma elementNames_eq_nil {x : Ident} {ds : List Declarator} (h : ∀ d ∈ ds, d.elementOf ≠ some x) :
    elementNames x ds = [] := by
  refine List.filterMap_eq_nil_iff.mpr fun d hd => ?_
  cases d.target <;> simp [h d hd]

section Lower

variable {choice : List (Option Ident)} {ds : List Tree}

/-- To an identifier that is none of the temporaries, the declarators read as before. -/
lemma elementNames_lowerDeclarators {x : Ident} (h : CanLower choice ds)
    (hx : x ∉ temporaries choice) :
    elementNames x ((lowerDeclarators choice ds).map declarator) =
      elementNames x (ds.map declarator) := by
  fun_induction lowerDeclarators choice ds with
  | case1 tmp choice d ds ih =>
    have hd : d.Destructures := h.head
    have hne : x ≠ tmp ∧ x ∉ temporaries choice := List.ne_and_not_mem_of_not_mem_cons hx
    rw [lowerDeclarator, List.cons_append, List.map_cons, List.map_append,
      elementNames_cons_of_none (by rw [hd.declarator_bindTemporary]), elementNames_append,
      map_declarator_readDeclarators, elementNames_reads, if_neg hne.1.symm, List.nil_append,
      ih h.tail hne.2, List.map_cons, elementNames_cons_of_none hd.elementOf_eq]
  | case2 choice d ds ih =>
    have hx : x ∉ temporaries choice := hx
    rw [List.map_cons, List.map_cons, elementNames, elementNames, List.filterMap_cons,
      List.filterMap_cons, ← elementNames, ← elementNames, ih h.tail hx]
  | case3 ds => rfl
  | case4 choice _ => rfl

/-- The value of a chosen declarator stands in the same context before and after: the names that
read elements of its temporary are those that its pattern binds. -/
lemma ofDeclarator_lower {tmp : Ident} {d : Tree} (h : CanLower (some tmp :: choice) (d :: ds)) :
    ofDeclarator (d.bindTemporary tmp).declarator
        ((readDeclarators tmp 0 d.elements ++ lowerDeclarators choice ds).map declarator) =
      ofDeclarator d.declarator (ds.map declarator) := by
  have hd : d.Destructures := h.head
  have hlater : elementNames tmp (ds.map declarator) = [] := by
    refine elementNames_eq_nil fun e he => ?_
    obtain ⟨t, ht, rfl⟩ := List.mem_map.mp he
    exact (h.head_fresh t ht).2
  have hnames : elementNames tmp
      ((readDeclarators tmp 0 d.elements ++ lowerDeclarators choice ds).map declarator) =
        (d.elements.filterMap ident?).map Ident.name := by
    rw [List.map_append, elementNames_append, map_declarator_readDeclarators, elementNames_reads,
      if_pos rfl, elementNames_lowerDeclarators h.tail h.head_notMem, hlater, List.append_nil]
  have hbinds : (d.elements.filterMap ident?).map Ident.name ≠ [] := by
    obtain ⟨e, he, hident⟩ := hd.binds
    obtain ⟨x, hx⟩ := Option.isSome_iff_exists.mp hident
    exact List.ne_nil_of_mem (List.mem_map_of_mem (List.mem_filterMap.mpr ⟨e, he, hx⟩))
  rw [hd.ofDeclarator_eq, hd.declarator_bindTemporary]
  -- the names are not empty, so the temporary itself is not the label
  simp only [ofDeclarator, hnames]

/-- So does the value of a declarator that is not chosen: it binds no temporary. -/
lemma ofDeclarator_keep {d : Tree} (h : CanLower (none :: choice) (d :: ds)) :
    ofDeclarator d.declarator ((lowerDeclarators choice ds).map declarator) =
      ofDeclarator d.declarator (ds.map declarator) := by
  refine ofDeclarator_congr fun x hx => elementNames_lowerDeclarators h.tail fun hmem => ?_
  exact (h.fresh x hmem d List.mem_cons_self).1 hx

end Lower

end BindingContext

end HookLabel
