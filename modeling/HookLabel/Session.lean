import HookLabel.Config.Error
import HookLabel.Module

/-!
# Sessions

A session holds one module and takes the steps of labelling on it in any order, with any resolver
and any number of labelled calls. `Session.step` takes one step and answers it.
-/

namespace HookLabel

/-- A module in work. -/
structure Session where
  module : Module
  config : Config := {}
  /-- The number of calls that the last labelling pass has labelled. -/
  labelCount : Nat := 0
  imports : ImportBindings := ∅

/-! ### Resolvers -/

namespace Resolver

/-- Every identifier is imported from a tracked module. -/
def all : Resolver := fun _ _ => true

/-- No identifier is. -/
def never : Resolver := fun _ _ => false

/-- The given identifiers are. -/
def ofIdents (xs : List Ident) : Resolver := fun x _ => xs.contains x

/-- Every identifier is imported from the given module. -/
def ofOrigin (origin : String) : Resolver := fun _ origins => origins.contains origin

end Resolver

/-! ### Steps -/

/-- A step of a session. -/
inductive Step where
  /-- Sets the configuration that a text describes. -/
  | configure (text : String)
  /-- Collects the imports of the module as it is. -/
  | collect
  /-- Asks where an identifier is imported from. -/
  | query (x : Ident) (origins : List String)
  /-- Labels the hook calls, by the collected imports unless a resolver is given. -/
  | label (resolver : Option Resolver)
  /-- Adds the import of the helper, for the last labelling pass unless a number is given. -/
  | addImport (labelCount : Option Nat)
  /-- Labels the module by its own imports. -/
  | run

/-- The answer to a step. -/
inductive Answer where
  | configured (result : Except ConfigError Config)
  | collected
  | resolved (source : Option String) (resolves : Bool)
  | labelled (result : Labelled Module)
  /-- Whether the module has changed, whether the log on which it was decided is dirty, and what
  has become of the module. -/
  | imported (changed : Bool) (dirty : Bool) (result : Labelled Module)
  | ran (result : Labelled Module)

namespace Session

/-- Takes a step. -/
def step (s : Session) : Step → Session × Answer
  | .configure text =>
    match Config.ofText text with
    | .error e => (s, .configured (.error e))
    | .ok config => ({ s with config }, .configured (.ok config))
  | .collect => ({ s with imports := s.module.imports }, .collected)
  | .query x origins => (s, .resolved (s.imports.source? x) (s.imports.resolves x origins))
  | .label resolver =>
    let result := s.module.label s.config (resolver.getD s.imports.resolves)
    ({ s with module := result.value, labelCount := result.log.labelCount }, .labelled result)
  | .addImport labelCount =>
    let log : Log := { labelCount := labelCount.getD s.labelCount }
    let result := s.module.addWrapperImport s.config log
    ({ s with module := result.value, labelCount := log.labelCount },
      .imported log.isDirty log.isDirty result)
  | .run =>
    let result := s.module.run s.config
    ({ s with module := result.value }, .ran result)

/-- Takes the steps of a list, from left to right. -/
def answers (s : Session) : List Step → List Answer
  | [] => []
  | step :: steps =>
    let next := s.step step
    next.2 :: next.1.answers steps

end Session

end HookLabel
