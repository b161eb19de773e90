import HookLabel.Decimal.Notation
import HookLabel.Text.Quoted

/-!
# Errors of reading JSON

A text is read once from left to right, and reading stops at the first problem. `ReadError` lists
the problems by cause; `ReadError.message?` words those that are about the data and not about the
form of the text.
-/

namespace HookLabel.Json

/-- What stands in a text where something else was expected. -/
inductive Found where
  | null
  | bool (value : Bool)
  | integer (value : Int)
  | decimal (value : Decimal)
  | string (value : String)
  | sequence
  | map
deriving DecidableEq, Repr

/-- What is expected at a place of a text. -/
inductive Expected where
  /-- A group of named fields, by the name of the group. -/
  | record (name : String)
  | sequence
  | string
deriving DecidableEq, Repr

/-- The first problem of a text. -/
inductive ReadError where
  /-- The text ends where more is needed. -/
  | endOfInput
  /-- The text is not well-formed. -/
  | illFormed
  /-- A field of a record is none of the known ones. -/
  | unknownField (name : String) (known : List String)
  /-- A field of a record is given again. -/
  | duplicateField (name : String)
  /-- A value is of another kind than expected. -/
  | mismatch (found : Found) (expected : Expected)
deriving DecidableEq, Repr

/-- The description of what was found. -/
def Found.text : Found → String
  | null => "null"
  | bool true => "boolean `true`"
  | bool false => "boolean `false`"
  | integer value => s!"integer `{value}`"
  | decimal value => "floating point `" ++ value.text ++ "`"
  | string value => "string " ++ Text.quote value
  | sequence => "sequence"
  | map => "map"

/-- The description of what was expected. -/
def Expected.text : Expected → String
  | record name => "struct " ++ name
  | sequence => "a sequence"
  | string => "a string"

/-- The wording of a problem with the data; problems of form have none. -/
def ReadError.message? : ReadError → Option String
  | endOfInput => none
  | illFormed => none
  | unknownField name known =>
    let choices := ", ".intercalate (known.map fun k => "`" ++ k ++ "`")
    some (s!"unknown field `{name}`, expected one of " ++ choices)
  | duplicateField name => some s!"duplicate field `{name}`"
  | mismatch found expected =>
    some ("invalid type: " ++ found.text ++ ", expected " ++ expected.text)

end HookLabel.Json
