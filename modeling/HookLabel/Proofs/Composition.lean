import HookLabel.Proofs.Labelling
import HookLabel.Proofs.Passes

/-!
# Labelling in several passes

Two labelling passes are one pass whose labels are those of the first pass and around them those of
the second (`wrapOwned_wrapOwned`).  The second pass finds a call of the helper where the first one
has labelled a call.  If the helper is no tracked hook it leaves that call alone, and finds every
other call in its place and in its context.  So each call gets the label of the first pass that
resolves it, and since the label depends on the context only, the passes compose like a union.
-/

namespace HookLabel

/-- The resolver that resolves what one of two resolvers resolves. -/
def Resolver.union (first later : Resolver) : Resolver :=
  fun x origins => first x origins || later x origins

/-! ### The labels of a call in two passes -/

namespace Labeller

/-- A call of a name that is no tracked hook has no label. -/
lemma label?_eq_none_of_name {l : Labeller} {c : OwnedCall}
    (h : Hook.ofName? c.callee.name = none) : l.label? c = none := by
  rw [label?, h]
  rfl

/-- A call is given no labels exactly if it has none. -/
lemma labels_eq_nil_iff {l : Labeller} {c : OwnedCall} : l.labels c = [] ↔ l.label? c = none := by
  rw [labels, Option.toList_eq_nil_iff]

/-- A call that a pass has labelled calls the helper, in the same context. -/
lemma wrapped_of_label? {l : Labeller} {c : OwnedCall} {label : String}
    (h : l.label? c = some label) (wrapper : String) :
    c.wrapped wrapper l.labels = { c with callee := ⟨wrapper, 0⟩ } := by
  have hlabels : l.labels c ≠ [] := by
    rw [labels, h]
    exact List.cons_ne_nil label []
  rw [OwnedCall.wrapped, if_neg hlabels]

/-- A call that a pass has not labelled is what it was. -/
lemma wrapped_of_label?_eq_none {l : Labeller} {c : OwnedCall} (h : l.label? c = none)
    (wrapper : String) : c.wrapped wrapper l.labels = c := by
  rw [OwnedCall.wrapped, if_pos (labels_eq_nil_iff.mpr h)]

section Union

variable {config : Config} {first later : Resolver}

/-- The union of two resolvers gives a call the label that either of them gives it. -/
lemma label?_union (c : OwnedCall) :
    label? ⟨config, first.union later⟩ c =
      (label? ⟨config, first⟩ c).or (label? ⟨config, later⟩ c) := by
  by_cases hfirst : first c.callee config.origins
  · by_cases hlater : later c.callee config.origins <;>
      simp [label?, Resolver.union, hfirst, hlater]
  · simp [label?, Resolver.union, hfirst]

/-- What a later pass gives to a call that it finds after the first pass: nothing if the first pass
has labelled it, and else what it would have given it before. -/
lemma label?_wrapped (hname : Hook.ofName? config.wrapperName = none) (c : OwnedCall) :
    label? ⟨config, later⟩ (c.wrapped config.wrapperName (labels ⟨config, first⟩)) =
      if (label? ⟨config, first⟩ c).isSome then none else label? ⟨config, later⟩ c := by
  cases hfirst : label? ⟨config, first⟩ c with
  | none => rw [wrapped_of_label?_eq_none hfirst]; rfl
  | some label =>
    rw [wrapped_of_label? hfirst]
    exact label?_eq_none_of_name hname

/-- The labels of both passes together are those of the union. -/
lemma labelsThen_eq_union (hname : Hook.ofName? config.wrapperName = none) :
    labelsThen config.wrapperName (labels ⟨config, first⟩) (labels ⟨config, later⟩) =
      labels ⟨config, first.union later⟩ := by
  funext c
  rw [labelsThen, labels, labels, labels, label?_wrapped hname, label?_union]
  cases label? ⟨config, first⟩ c <;> rfl

/-- The calls that the first pass labels and those that the later pass labels after it are, without
repetition, those that the union labels. -/
lemma countP_label?_add (hname : Hook.ofName? config.wrapperName = none) (cs : List OwnedCall) :
    (cs.countP fun c => (label? ⟨config, first⟩ c).isSome) +
        ((cs.map (OwnedCall.wrapped config.wrapperName (labels ⟨config, first⟩))).countP fun c =>
          (label? ⟨config, later⟩ c).isSome) =
      cs.countP fun c => (label? ⟨config, first.union later⟩ c).isSome := by
  induction cs with
  | nil => rfl
  | cons c cs ih =>
    rw [List.map_cons, List.countP_cons, List.countP_cons, List.countP_cons, ← ih,
      label?_wrapped hname, label?_union]
    cases label? ⟨config, first⟩ c <;> cases label? ⟨config, later⟩ c <;> simp <;> omega

end Union

end Labeller

/-- An identifier is tracked by two lists of modules if it is by one of them. -/
lemma ImportBindings.resolves_append (b : ImportBindings) (x : Ident) (os os' : List String) :
    b.resolves x (os ++ os') = (b.resolves x os || b.resolves x os') := by
  unfold resolves
  cases b.source? x with
  | none => rfl
  | some source => simp

/-! ### Two passes over a module -/

namespace Module

variable (m : Module) (config : Config)

/-- Labelling depends on the origins of a configuration only through what they resolve. -/
lemma label_origins (origins : List String) (resolver : Resolver) :
    m.label { config with origins } resolver = m.label config fun x _ => resolver x origins := by
  rw [label_eq, label_eq]
  rfl

variable {config}

/-- Labelling by one resolver and then by another makes what labelling by their union makes. -/
lemma value_label_label (hname : Hook.ofName? config.wrapperName = none)
    (first later : Resolver) :
    ((m.label config first).value.label config later).value =
      (m.label config (first.union later)).value := by
  simp only [label_eq, Tree.map_wrapOwned_wrapOwned, Labeller.labelsThen_eq_union hname]

/-- Labelling by one resolver and then by another counts, in all, what labelling by their union
counts. -/
lemma labelCount_label_label (hname : Hook.ofName? config.wrapperName = none)
    (first later : Resolver) :
    (m.label config first).log.labelCount +
        ((m.label config first).value.label config later).log.labelCount =
      (m.label config (first.union later)).log.labelCount := by
  simp only [label_eq, Tree.ownedCallsOfList_map_wrapOwned]
  exact Labeller.countP_label?_add hname _

/-- Labelling passes whose helper is no tracked hook compose like a union, and hence commute: two
passes with resolvers of any kind make of a module what one pass makes of it that resolves what
either resolves, and label as many calls together.  So do two passes by the imports of the module
that track different origins. -/
theorem label_label_eq_union (hname : Hook.ofName? config.wrapperName = none) :
    (∀ first later : Resolver,
      ((m.label config first).value.label config later).value =
        (m.label config (first.union later)).value ∧
      ((m.label config first).value.label config later).value =
        ((m.label config later).value.label config first).value ∧
      (m.label config first).log.labelCount +
          ((m.label config first).value.label config later).log.labelCount =
        (m.label config (first.union later)).log.labelCount) ∧
    ∀ origins more : List String,
      let once := m.label { config with origins } m.imports.resolves
      let twice := once.value.label { config with origins := more } m.imports.resolves
      let both := m.label { config with origins := origins ++ more } m.imports.resolves
      twice.value = both.value ∧
        once.log.labelCount + twice.log.labelCount = both.log.labelCount := by
  have hunion : ∀ first later : Resolver, first.union later = later.union first := by
    intro first later
    funext x origins
    exact Bool.or_comm ..
  refine ⟨fun first later => ⟨m.value_label_label hname first later, ?_,
    m.labelCount_label_label hname first later⟩, fun origins more => ?_⟩
  · rw [value_label_label m hname, value_label_label m hname, hunion]
  · have hboth : (fun x _ => m.imports.resolves x (origins ++ more)) =
        Resolver.union (fun x _ => m.imports.resolves x origins)
          fun x _ => m.imports.resolves x more :=
      funext fun x => funext fun _ => m.imports.resolves_append x origins more
    simp only [label_origins _ config, hboth]
    exact ⟨m.value_label_label hname _ _, m.labelCount_label_label hname _ _⟩

/-- In `a = useState(b = useRef())`, the one call stands in the argument of the other. -/
theorem label_label_eq_union_of_nested_calls :
    let call : String → List Tree → Tree := fun name arguments => .node .callExpression
      [("callee", .reference name), ("arguments", .list arguments)]
    let assign : String → Tree → Tree := fun name value => .node .assignmentExpression
      [("left", .reference name), ("right", value)]
    let m : Module :=
      ⟨[assign "a" (call "useState" [.argument (assign "b" (call "useRef" []))])], []⟩
    let states : Resolver := fun x _ => x.name == "useState"
    let refs : Resolver := fun x _ => x.name == "useRef"
    Hook.ofName? ({} : Config).wrapperName = none ∧
    ((m.label {} states).value.label {} refs).value =
      ((m.label {} refs).value.label {} states).value :=
  ⟨rfl, ((label_label_eq_union _ rfl).1 _ _).2.1⟩

end Module

end HookLabel
