import HookLabel.Config.Reader

/-!
# Configurations from text

`Config.ofText` reads a configuration and refuses it if it has a fault.
-/

namespace HookLabel

/-- Why a text is no usable configuration. -/
inductive ConfigError where
  /-- The text could not be read. -/
  | malformed (cause : Json.ReadError)
  /-- The configuration that was read cannot be used. -/
  | unusable (fault : Config.Fault)
deriving DecidableEq, Repr

/-- The wording of an error, where it has one. -/
def ConfigError.message? : ConfigError → Option String
  | malformed cause => cause.message?.map fun text => "malformed plugin config: " ++ text
  | unusable fault => some fault.message

namespace Config

/-- The configuration that a text describes. -/
def ofText (text : String) : Except ConfigError Config :=
  match read text with
  | .error cause => .error (.malformed cause)
  | .ok config =>
    match config.fault? with
    | some fault => .error (.unusable fault)
    | none => .ok config

/-- The configuration that a text describes, or the default one if no text is given. -/
def ofText? : Option String → Except ConfigError Config
  | none => .ok {}
  | some text => ofText text

end Config

end HookLabel
