import HookLabel.Proofs.HelperCalls
import HookLabel.Proofs.Labelling

/-!
# Runs of passes over a module

A caller may label a module, add the import of the helper and run the whole pipeline in any order
and as often as wanted, each time with a configuration, a resolver and a log of its own choice.
`Module.afterPasses` is the module after such a run and `Module.injections` lists what the run was
told to import.

Nothing but wrapping and prepending ever happens: the imports that were made stand in front, the
last one first and each as it was made, and behind them stand the items of the module, which
differ from what they were in helper calls only.
-/

namespace HookLabel

/-- A pass over a module, with all that its caller chooses. -/
inductive Pass where
  /-- Labels the hook calls by a resolver. -/
  | label (config : Config) (resolver : Resolver)
  /-- Adds the import of the helper if the log is dirty. -/
  | addImport (config : Config) (log : Log)
  /-- Labels the module by its own imports and adds the import if any call was labelled. -/
  | run (config : Config)

/-- The configuration of a pass. -/
def Pass.config : Pass → Config
  | label config _ => config
  | addImport config _ => config
  | run config => config

namespace Module

/-- The module after a pass. -/
def afterPass (m : Module) : Pass → Module
  | .label config resolver => (m.label config resolver).value
  | .addImport config log => (m.addWrapperImport config log).value
  | .run config => (m.run config).value

/-- The injections that a pass performs: the configuration of each, and the log by which it
decides whether there is anything to import. -/
def injectionsOf (m : Module) : Pass → List (Config × Log)
  | .label _ _ => []
  | .addImport config log => [(config, log)]
  | .run config => [(config, (m.label config m.imports.resolves).log)]

/-- The module after the passes of a list, from left to right. -/
def afterPasses (m : Module) : List Pass → Module
  | [] => m
  | p :: ps => (m.afterPass p).afterPasses ps

/-- Passes are taken one after the other, so a run may be cut anywhere. -/
lemma afterPasses_append (m : Module) (ps qs : List Pass) :
    m.afterPasses (ps ++ qs) = (m.afterPasses ps).afterPasses qs := by
  induction ps generalizing m with
  | nil => rfl
  | cons p ps ih => exact ih (m.afterPass p)

/-- The injections that the passes of a list perform, in the order in which they are performed. -/
def injections (m : Module) : List Pass → List (Config × Log)
  | [] => []
  | p :: ps => m.injectionsOf p ++ (m.afterPass p).injections ps

/-- The imports that a list of injections leaves in front of a module: one for each that was
performed with a dirty log, the last one first. -/
def madeImports (injections : List (Config × Log)) : List Tree :=
  ((injections.filter fun i => i.2.isDirty).map fun i =>
    Tree.wrapperImport i.1.wrapperName i.1.wrapperSource).reverse

/-- Later imports stand in front of earlier ones. -/
lemma madeImports_append (is js : List (Config × Log)) :
    madeImports (is ++ js) = madeImports js ++ madeImports is := by
  rw [madeImports, List.filter_append, List.map_append, List.reverse_append]
  rfl

/-- The import of a helper holds nothing that could be wrapped. -/
lemma wrapOwned_madeImports (wrapper : String) (rule : OwnedCall → List String)
    (is : List (Config × Log)) :
    (madeImports is).map (Tree.wrapOwned wrapper rule) = madeImports is := by
  simp only [madeImports, List.map_reverse, List.map_map, Function.comp_def,
    Tree.wrapOwned_wrapperImport]

/-- An injection puts its import in front, if it makes one. -/
lemma body_addWrapperImport (m : Module) (config : Config) (log : Log) :
    (m.addWrapperImport config log).value.body = madeImports [(config, log)] ++ m.body := by
  unfold addWrapperImport madeImports
  cases h : log.isDirty <;> simp [h]

/-- An injection leaves the rest of the module as it is. -/
lemma attributes_addWrapperImport (m : Module) (config : Config) (log : Log) :
    (m.addWrapperImport config log).value.attributes = m.attributes := by
  unfold addWrapperImport
  split <;> rfl

/-! ### One pass -/

/-- What a run has made of a module so far: in front stand the imports of the injections performed
so far, and the items behind them are erased to what those of the module are. -/
structure Extends (names : String → Bool) (origin m : Module) (is : List (Config × Log)) :
    Prop where
  body : ∃ items, m.body = madeImports is ++ items ∧
    items.map (Tree.erase names) = origin.body.map (Tree.erase names)
  attributes : m.attributes = origin.attributes

variable {names : String → Bool} {origin m : Module} {is : List (Config × Log)}

/-- Labelling wraps calls behind the imports. -/
lemma Extends.label (h : Extends names origin m is) {config : Config}
    (hname : names config.wrapperName) (resolver : Resolver) :
    Extends names origin (m.label config resolver).value is := by
  obtain ⟨items, hbody, herase⟩ := h.body
  refine ⟨⟨items.map (Tree.wrapOwned config.wrapperName (Labeller.labels ⟨config, resolver⟩)),
    ?_, ?_⟩, h.attributes⟩
  · rw [label_eq, hbody, List.map_append, wrapOwned_madeImports]
  · rw [List.map_map, ← herase]
    exact List.map_congr_left fun t _ => Tree.erase_wrapOwned names _ hname t

/-- An injection adds itself to those performed. -/
lemma Extends.addWrapperImport (h : Extends names origin m is) (config : Config) (log : Log) :
    Extends names origin (m.addWrapperImport config log).value (is ++ [(config, log)]) := by
  obtain ⟨items, hbody, herase⟩ := h.body
  refine ⟨⟨items, ?_, herase⟩, ?_⟩
  · rw [body_addWrapperImport, hbody, madeImports_append, List.append_assoc]
  · rw [attributes_addWrapperImport, h.attributes]

/-- One pass adds its injections and wraps calls. -/
lemma Extends.afterPass (h : Extends names origin m is) {p : Pass}
    (hname : names p.config.wrapperName) :
    Extends names origin (m.afterPass p) (is ++ m.injectionsOf p) := by
  cases p with
  | label config resolver =>
    rw [injectionsOf, List.append_nil]
    exact h.label hname resolver
  | addImport config log => exact h.addWrapperImport config log
  | run config => exact (h.label hname m.imports.resolves).addWrapperImport config _

/-! ### Whole runs -/

/-- Passes add their injections one after the other, and wrap calls. -/
lemma Extends.afterPasses (h : Extends names origin m is) {ps : List Pass}
    (hnames : ∀ p ∈ ps, names p.config.wrapperName) :
    Extends names origin (m.afterPasses ps) (is ++ m.injections ps) := by
  -- the module and the injections so far change with every pass, the origin does not
  induction ps generalizing m is with
  | nil => rwa [Module.afterPasses, injections, List.append_nil]
  | cons p ps ih =>
    rw [Module.afterPasses, injections, ← List.append_assoc]
    exact ih (h.afterPass (hnames p List.mem_cons_self))
      fun q hq => hnames q (List.mem_cons_of_mem p hq)

/-- After any run of passes whose helper names are among `names`, the module has the imports that
the run has made, the last one first, and behind them as many items as before, which are erased to
what those of the module are erased to; nothing else of the module has changed.  If the module had
no helper calls, erasing them gives its items back. -/
theorem afterPasses_body_eq (names : String → Bool) (m : Module) (ps : List Pass)
    (hnames : ∀ p ∈ ps, names p.config.wrapperName) :
    (∃ items, (m.afterPasses ps).body = madeImports (m.injections ps) ++ items ∧
      items.length = m.body.length ∧
      items.map (Tree.erase names) = m.body.map (Tree.erase names) ∧
      (Tree.helperCallsOfList names m.body = [] → items.map (Tree.erase names) = m.body)) ∧
    (m.afterPasses ps).attributes = m.attributes := by
  have hstart : Extends names m m [] := ⟨⟨m.body, rfl, rfl⟩, rfl⟩
  have hrun := hstart.afterPasses hnames
  obtain ⟨items, hbody, herase⟩ := hrun.body
  refine ⟨⟨items, hbody, ?_, herase, ?_⟩, hrun.attributes⟩
  · simpa using congrArg List.length herase
  · intro hnone
    rw [Tree.helperCallsOfList_eq_flatten, List.flatten_eq_nil_iff] at hnone
    rw [herase]
    refine (List.map_congr_left fun t ht => ?_).trans (List.map_id' m.body)
    exact Tree.erase_eq_self names (hnone _ (List.mem_map_of_mem ht))

/-- A module labelled by its own imports, labelled once more by a resolver that trusts everything,
and given another import. -/
theorem afterPasses_body_eq_of_three_passes :
    let names : String → Bool := fun name => name == "addHookName"
    let ps := [.run {}, .label {} fun _ _ => true, .addImport {} { labelCount := 1 }]
    let m : Module := ⟨[.wrapperImport "useState" "react",
      .node .assignmentExpression [("left", .reference "a"), ("right", .node .callExpression
        [("callee", .reference "useState"), ("arguments", .list [])])]], []⟩
    (∀ p ∈ ps, names p.config.wrapperName) ∧
    (∃ items, (m.afterPasses ps).body = madeImports (m.injections ps) ++ items ∧
      items.length = m.body.length ∧
      items.map (Tree.erase names) = m.body.map (Tree.erase names) ∧
      (Tree.helperCallsOfList names m.body = [] → items.map (Tree.erase names) = m.body)) ∧
    (m.afterPasses ps).attributes = m.attributes := by
  intro names ps m
  have hnames : ∀ p ∈ ps, names p.config.wrapperName := by
    simp [ps, names, Pass.config]
  exact ⟨hnames, afterPasses_body_eq names m ps hnames⟩

end Module

end HookLabel
