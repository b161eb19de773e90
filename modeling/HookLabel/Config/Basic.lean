/-!
# Configuration

Which modules the tracked hooks are imported from, and the helper that labelled calls are wrapped
in. A configuration is usable when none of its parts is empty, which `Config.fault?` checks.
-/

namespace HookLabel

/-- A key of the configuration. -/
inductive Config.Key where
  | origins
  | wrapperName
  | wrapperSource
deriving DecidableEq, Repr

namespace Config.Key

/-- Every key, in the order in which values are given by position. -/
def all : List Key := [origins, wrapperName, wrapperSource]

/-- The key as it is written in a configuration text. -/
def name : Key → String
  | origins => "origins"
  | wrapperName => "wrapper_name"
  | wrapperSource => "wrapper_source"

/-- The key of the given name. -/
def ofName? : String → Option Key
  | "origins" => some origins
  | "wrapper_name" => some wrapperName
  | "wrapper_source" => some wrapperSource
  | _ => none

/-- A key is found by its name. -/
@[simp] theorem ofName?_name (k : Key) : ofName? k.name = some k := by
  cases k <;> rfl

/-- A key is found by no other name. -/
theorem ofName?_eq_some_iff {s : String} {k : Key} : ofName? s = some k ↔ s = k.name := by
  constructor
  · unfold ofName?
    split <;> rintro ⟨⟩ <;> rfl
  · rintro rfl
    exact ofName?_name k

end Config.Key

/-- A configuration. -/
structure Config where
  /-- The modules whose hooks are tracked. -/
  origins : List String := ["preact/hooks", "preact/compat", "react"]
  /-- The name of the labelling helper. -/
  wrapperName : String := "addHookName"
  /-- The module that the helper is imported from. -/
  wrapperSource : String := "source/devtools"
deriving DecidableEq, Repr, Inhabited

namespace Config

/-- What makes a configuration unusable. -/
inductive Fault where
  /-- No module is tracked. -/
  | noOrigins
  /-- The value of the key is empty or, among the origins, one of the modules is. -/
  | empty (key : Key)
deriving DecidableEq, Repr

/-- The first fault of a configuration, in the order of its keys. -/
def fault? (c : Config) : Option Fault :=
  if c.origins.isEmpty then some .noOrigins
  else if c.origins.any String.isEmpty then some (.empty .origins)
  else if c.wrapperName.isEmpty then some (.empty .wrapperName)
  else if c.wrapperSource.isEmpty then some (.empty .wrapperSource)
  else none

/-- The text by which a fault is reported. -/
def Fault.message : Fault → String
  | noOrigins => "plugin config lists no hook origins"
  | empty key => s!"plugin config key `{key.name}` must not be empty"

end Config

end HookLabel
