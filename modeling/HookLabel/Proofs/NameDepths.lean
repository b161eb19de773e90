import HookLabel.Binding
import HookLabel.Proofs.StableSort

/-!
# The depths of names

The names of a pattern are found by a search that keeps its places in a queue.  Here they are also
listed by a traversal that follows the pattern (`Pattern.namesAt`): from left to right and depth
first, each name with the number of steps from the root of the pattern down to it.

The search yields what the traversal lists, sorted stably by depth (`Place.levelNames_eq`).  What
carries the induction is that the queue spans no more than two adjacent depths: places of the depth
that is being searched, and behind them places one step further down, which were found at places
that stood before all those still waiting.

So the label of a pattern's value is the leftmost of the shallowest names of the pattern.
-/

namespace HookLabel

/-! ### Names with their depths -/

/-- A name that a pattern binds, and the number of steps that lead to it. -/
structure DeepName where
  depth : Nat
  name : String
deriving DecidableEq, Repr

mutual

/-- The names of a pattern that lies at the given depth, from left to right. -/
def Pattern.namesAt (depth : Nat) : Pattern → List DeepName
  | .name x => [⟨depth, x.name⟩]
  | .array ps => Pattern.namesAtOfList (depth + 1) ps
  | .object qs => Property.namesAtOfList (depth + 1) qs
  | .rest p => p.namesAt (depth + 1)
  | .withDefault p => p.namesAt (depth + 1)
  | .expression _ => []

/-- The names of the patterns of a list. -/
def Pattern.namesAtOfList (depth : Nat) : List Pattern → List DeepName
  | [] => []
  | p :: ps => p.namesAt depth ++ Pattern.namesAtOfList depth ps

/-- The names of a property that lies at the given depth.  Its key or value lies one step further
down, and the key of a shorthand property with a default two steps. -/
def Property.namesAt (depth : Nat) : Property → List DeepName
  | .keyed p => p.namesAt (depth + 1)
  | .shorthand x false => [⟨depth + 1, x.name⟩]
  | .shorthand x true => [⟨depth + 2, x.name⟩]
  | .rest p => p.namesAt (depth + 1)

/-- The names of the properties of a list. -/
def Property.namesAtOfList (depth : Nat) : List Property → List DeepName
  | [] => []
  | q :: qs => q.namesAt depth ++ Property.namesAtOfList depth qs

end

/-- The names of a list of patterns, one pattern after the other. -/
lemma Pattern.namesAtOfList_eq (depth : Nat) (ps : List Pattern) :
    Pattern.namesAtOfList depth ps = ps.flatMap (Pattern.namesAt depth) := by
  induction ps with
  | nil => rfl
  | cons p ps ih => rw [Pattern.namesAtOfList, ih, List.flatMap_cons]

/-- The names of a list of properties, one property after the other. -/
lemma Property.namesAtOfList_eq (depth : Nat) (qs : List Property) :
    Property.namesAtOfList depth qs = qs.flatMap (Property.namesAt depth) := by
  induction qs with
  | nil => rfl
  | cons q qs ih => rw [Property.namesAtOfList, ih, List.flatMap_cons]

namespace Place

/-! ### The search and the traversal -/

/-- The names at and below a place that lies at the given depth. -/
def namesAt (depth : Nat) : Place → List DeepName
  | pattern p => p.namesAt depth
  | property q => q.namesAt depth
  | defaulted x => [⟨depth + 1, x.name⟩]
  | name x => [⟨depth, x.name⟩]

/-- What lies at a place, and below it what lies at its children. -/
lemma namesAt_eq (depth : Nat) (place : Place) :
    place.namesAt depth =
      place.names.map (DeepName.mk depth) ++ place.children.flatMap (namesAt (depth + 1)) := by
  match place with
  | pattern (.array ps) =>
    rw [namesAt, Pattern.namesAt, Pattern.namesAtOfList_eq, children, List.flatMap_map]
    rfl
  | pattern (.object qs) =>
    rw [namesAt, Pattern.namesAt, Property.namesAtOfList_eq, children, List.flatMap_map]
    rfl
  | pattern (.rest p) | pattern (.withDefault p) | property (.keyed p) | property (.rest p) =>
    exact (List.flatMap_singleton ..).symm
  | pattern (.name x) | pattern (.expression a) | property (.shorthand x true)
  | property (.shorthand x false) | defaulted x | name x => rfl

/-- A place weighs no more than the places that it is among. -/
lemma weight_le_weights_of_mem {place : Place} {places : List Place} (h : place ∈ places) :
    place.weight ≤ weights places := by
  induction places with
  | nil => cases h
  | cons other places ih =>
    rw [weights_cons]
    rcases List.mem_cons.mp h with rfl | h
    · exact Nat.le_add_right _ _
    · exact Nat.le_trans (ih h) (Nat.le_add_left _ _)

/-- Nothing below a place is less deep than the place. -/
lemma le_depth_of_mem_namesAt (depth : Nat) (place : Place) :
    ∀ n ∈ place.namesAt depth, depth ≤ n.depth := by
  intro n hn
  rw [namesAt_eq, List.mem_append] at hn
  rcases hn with hn | hn
  · obtain ⟨name, -, rfl⟩ := List.mem_map.mp hn
    exact Nat.le_refl depth
  · obtain ⟨child, hchild, hn⟩ := List.mem_flatMap.mp hn
    exact Nat.le_of_succ_le (le_depth_of_mem_namesAt (depth + 1) child n hn)
termination_by place.weight
decreasing_by exact Nat.lt_of_le_of_lt (weight_le_weights_of_mem hchild) (weights_children_lt place)

/-- Names below places of one depth lie at that depth or deeper. -/
lemma le_depth_of_mem_flatMap {depth : Nat} {places : List Place} {n : DeepName}
    (h : n ∈ places.flatMap (namesAt depth)) : depth ≤ n.depth := by
  obtain ⟨place, -, hn⟩ := List.mem_flatMap.mp h
  exact le_depth_of_mem_namesAt depth place n hn

/-- What the search finds from a queue that spans two depths.  The places behind, one step further
down, were found at places to the left of those in front, so in the traversal they come first. -/
theorem levelNames_eq (depth : Nat) (front behind : List Place) :
    levelNames (front ++ behind) =
      (sortBy DeepName.depth (behind.flatMap (namesAt (depth + 1)) ++
        front.flatMap (namesAt depth))).map DeepName.name := by
  generalize hqueue : front ++ behind = queue
  induction queue using levelNames.induct generalizing depth front behind with
  | case1 =>
    obtain ⟨rfl, rfl⟩ := List.append_eq_nil_iff.mp hqueue
    rw [levelNames, List.flatMap_nil, List.flatMap_nil, List.nil_append, sortBy,
      List.mergeSort_nil, List.map_nil]
  | case2 place waiting ih =>
    have step : ∀ (depth : Nat) (front behind : List Place), front ++ behind = waiting →
        levelNames (place :: waiting) =
          (sortBy DeepName.depth (behind.flatMap (namesAt (depth + 1)) ++
            (place :: front).flatMap (namesAt depth))).map DeepName.name := by
      intro depth front behind hwaiting
      have hsplit : behind.flatMap (namesAt (depth + 1)) ++
          (place :: front).flatMap (namesAt depth) =
            behind.flatMap (namesAt (depth + 1)) ++ place.names.map (DeepName.mk depth) ++
              (place.children.flatMap (namesAt (depth + 1)) ++ front.flatMap (namesAt depth)) := by
        rw [List.flatMap_cons, namesAt_eq, List.append_assoc, List.append_assoc]
      have hleast : ∀ n ∈ place.names.map (DeepName.mk depth), n.depth = depth := by
        intro n hn
        obtain ⟨name, -, rfl⟩ := List.mem_map.mp hn
        rfl
      have hback : ∀ n ∈ place.children.flatMap (namesAt (depth + 1)) ++
          front.flatMap (namesAt depth), depth ≤ n.depth := by
        intro n hn
        rcases List.mem_append.mp hn with hn | hn
        · exact Nat.le_of_succ_le (le_depth_of_mem_flatMap hn)
        · exact le_depth_of_mem_flatMap hn
      have hbelow := ih depth front (behind ++ place.children)
        (by rw [← hwaiting, List.append_assoc])
      have hnames : (place.names.map (DeepName.mk depth)).map DeepName.name = place.names := by
        rw [List.map_map]
        exact List.map_id place.names
      rw [levelNames, hbelow, hsplit,
        sortBy_append_least hleast (fun n hn => le_depth_of_mem_flatMap hn) hback, List.map_append,
        hnames, List.flatMap_append, List.append_assoc]
    cases front with
    | nil =>
      -- the depth is searched through, and what stood behind is searched next
      have hnext := step (depth + 1) waiting [] (List.append_nil waiting)
      rw [List.nil_append] at hqueue
      rw [hnext, hqueue, List.flatMap_nil, List.flatMap_nil, List.nil_append, List.append_nil]
    | cons first front =>
      obtain ⟨rfl, hwaiting⟩ := List.cons.inj hqueue
      exact step depth front behind hwaiting

end Place

/-- The names of a pattern are those of the traversal, sorted stably by depth. -/
lemma Pattern.bindingNames_eq (p : Pattern) :
    p.bindingNames = (sortBy DeepName.depth (p.namesAt 0)).map DeepName.name := by
  have hsearch := Place.levelNames_eq 0 [.pattern p] []
  rwa [List.append_nil, List.flatMap_nil, List.nil_append, List.flatMap_singleton] at hsearch

/-! ### Labels -/

/-- A pattern under its defaults. -/
def Pattern.belowDefaults : Pattern → Pattern
  | .withDefault p => p.belowDefaults
  | p => p

/-- A default adds a level above a pattern, which changes no order. -/
lemma Pattern.bindingNames_withDefault (p : Pattern) :
    (Pattern.withDefault p).bindingNames = p.bindingNames := by
  rw [bindingNames, Place.levelNames]
  rfl

/-- The names of a context. -/
def BindingContext.names : BindingContext → List String
  | tuple names | structured names => names
  | simple name => [name]
  | unbound => []

/-- The label of a context is the first of its names. -/
lemma BindingContext.label?_eq_head? (context : BindingContext) :
    context.label? = context.names.head? := by
  cases context <;> rfl

/-- The context of a pattern's value has the names of the pattern, unless the pattern is a rest
element, whose value is never bound as a whole. -/
lemma BindingContext.names_ofPattern {p : Pattern} (h : ∀ q, p.belowDefaults ≠ .rest q) :
    (ofPattern p).names = p.bindingNames := by
  fun_induction ofPattern p with
  | case1 x =>
    rw [Pattern.bindingNames_eq, Pattern.namesAt, sortBy, List.mergeSort_singleton]
    rfl
  | case2 ps => rfl
  | case3 qs => rfl
  | case4 p ih => rw [Pattern.bindingNames_withDefault, ih h]
  | case5 p => exact absurd rfl (h p)
  | case6 assigned =>
    rw [Pattern.bindingNames_eq, Pattern.namesAt, sortBy, List.mergeSort_nil]
    rfl

/-- The label of a pattern's value is the first name that the pattern binds. -/
lemma BindingContext.label?_ofPattern {p : Pattern} (h : ∀ q, p.belowDefaults ≠ .rest q) :
    (ofPattern p).label? = p.bindingNames.head? := by
  rw [label?_eq_head?, names_ofPattern h]

/-- A rest element at the root, defaults aside, leaves the value without a name. -/
lemma BindingContext.ofPattern_of_rest {p q : Pattern} (h : p.belowDefaults = .rest q) :
    ofPattern p = unbound := by
  fun_induction ofPattern p with
  | case4 p ih => exact ih h
  | case5 p | case6 assigned => rfl
  | case1 x | case2 ps | case3 qs => cases h

/-- The search through a pattern is a stable sort by depth: it yields the names of the traversal, no
name lost and none twice, the shallower first and those of one depth as the traversal has them.
Unless the pattern is a rest element under its defaults, the label of its value is the leftmost of
its shallowest names, and there is none exactly if the pattern binds no name. -/
theorem BindingContext.bindingNames_label?_eq_sorted (p : Pattern) :
    let found := p.namesAt 0
    let sorted := sortBy DeepName.depth found
    p.bindingNames = sorted.map DeepName.name ∧
    (sorted.Perm found ∧ (sorted.Pairwise fun m n => m.depth ≤ n.depth) ∧
      ∀ depth, (sorted.filter fun n => n.depth = depth) = found.filter fun n => n.depth = depth) ∧
    ((∀ q, p.belowDefaults ≠ .rest q) →
      (ofPattern p).label? = p.bindingNames.head? ∧
      (∀ name, (ofPattern p).label? = some name ↔
        ∃ before n after, found = before ++ n :: after ∧ n.name = name ∧
          (∀ m ∈ before, n.depth < m.depth) ∧ ∀ m ∈ after, n.depth ≤ m.depth) ∧
      ((ofPattern p).label? = none ↔ found = [])) := by
  intro found sorted
  refine ⟨p.bindingNames_eq, ⟨sortBy_perm _ found, pairwise_sortBy _ found, filter_sortBy _ found⟩,
    fun hrest => ?_⟩
  have hlabel : (ofPattern p).label? = sorted.head?.map DeepName.name := by
    rw [label?_ofPattern hrest, p.bindingNames_eq, List.head?_map]
  refine ⟨label?_ofPattern hrest, fun name => ?_, ?_⟩
  · rw [hlabel, Option.map_eq_some_iff]
    constructor
    · rintro ⟨n, hn, hname⟩
      obtain ⟨before, after, hfound, hbefore, hafter⟩ := head?_sortBy_eq_some_iff.mp hn
      exact ⟨before, n, after, hfound, hname, hbefore, hafter⟩
    · rintro ⟨before, n, after, hfound, hname, hbefore, hafter⟩
      exact ⟨n, head?_sortBy_eq_some_iff.mpr ⟨before, after, hfound, hbefore, hafter⟩, hname⟩
  · rw [hlabel, Option.map_eq_none_iff, List.head?_eq_none_iff]
    have hperm : sorted.Perm found := sortBy_perm _ found
    constructor
    · intro h
      rw [h] at hperm
      exact hperm.symm.eq_nil
    · intro h
      rw [h] at hperm
      exact hperm.eq_nil

/-- `[{ a }, ...{ b = 0, c }]`: three steps lead to `a`, and more to `c` and `b`. -/
theorem BindingContext.label?_of_nested_pattern :
    let p : Pattern := .array [.object [.shorthand ⟨"a", 0⟩ false],
      .rest (.object [.shorthand ⟨"b", 0⟩ true, .shorthand ⟨"c", 0⟩ false])]
    (∀ q, p.belowDefaults ≠ .rest q) ∧
    p.namesAt 0 = [⟨3, "a"⟩, ⟨5, "b"⟩, ⟨4, "c"⟩] ∧ (ofPattern p).label? = some "a" := by
  intro p
  have hrest : ∀ q, p.belowDefaults ≠ .rest q := nofun
  have hlabel := (bindingNames_label?_eq_sorted p).2.2 hrest
  refine ⟨hrest, rfl, (hlabel.2.1 "a").mpr ⟨[], ⟨3, "a"⟩, _, rfl, rfl, nofun, ?_⟩⟩
  decide

end HookLabel
