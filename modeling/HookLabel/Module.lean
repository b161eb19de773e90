import HookLabel.Labelling.Basic

/-!
# Modules

A module is labelled in three steps: its imports are collected, its hook calls are labelled, and
the import of the labelling helper is put in front of it if any call was labelled. `Module.run`
takes the three steps, and each can be taken on its own with a state of the caller's choice.
-/

namespace HookLabel

/-- A module: its items, and the rest of what is known of it. -/
structure Module where
  body : List Tree
  attributes : Fields
deriving Repr, Inhabited

/-- A program. Scripts cannot import hooks, so there is nothing to label in them. -/
inductive Program where
  | module (m : Module)
  | script (tree : Tree)
deriving Repr, Inhabited

namespace Module

/-- The imports of a module. -/
def imports (m : Module) : ImportBindings := .ofItems m.body

/-- Labels the hook calls of a module. -/
def label (m : Module) (config : Config) (resolver : Resolver) : Labelled Module :=
  let labelled := Labeller.labelTrees ⟨config, resolver⟩ m.body
  ⟨{ m with body := labelled.value }, labelled.log⟩

/-- Puts the import of the helper in front of a module in which calls have been labelled; the log
tells how many. -/
def addWrapperImport (m : Module) (config : Config) (log : Log) : Labelled Module :=
  if log.isDirty then
    ⟨{ m with body := .wrapperImport config.wrapperName config.wrapperSource :: m.body },
      { events := [.imported log.labelCount config.wrapperSource] }⟩
  else ⟨m, ∅⟩

/-- Labels a module by its own imports. -/
def run (m : Module) (config : Config) : Labelled Module :=
  let labelled := m.label config m.imports.resolves
  let imported := labelled.value.addWrapperImport config labelled.log
  ⟨imported.value, labelled.log ++ imported.log⟩

end Module

/-- Labels a program, by the default configuration unless another one is given. -/
def Program.run (p : Program) (config : Config := {}) : Labelled Program :=
  match p with
  | .module m =>
    let labelled := m.run config
    ⟨.module labelled.value, labelled.log⟩
  | .script tree => ⟨.script tree, ∅⟩

end HookLabel
