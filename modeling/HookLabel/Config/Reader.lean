import HookLabel.Config.Basic
import HookLabel.Json.Value

/-!
# Reading a configuration

A configuration is written as a JSON object whose members are the keys of the configuration, each
at most once, or as a JSON array of the values by position. What is left out has its default. A
text is judged from left to right: an unknown or repeated key counts as soon as it is read, and the
faults of a configuration are looked for only once the whole text has been read.
-/

namespace HookLabel.Config

open Json

/-! ### Values that have been read so far -/

/-- The values of those keys that have been given. -/
structure Draft where
  origins : Option (List String) := none
  wrapperName : Option String := none
  wrapperSource : Option String := none
deriving DecidableEq, Repr

namespace Draft

/-- Whether the value of a key has been given. -/
def has (d : Draft) : Key → Bool
  | .origins => d.origins.isSome
  | .wrapperName => d.wrapperName.isSome
  | .wrapperSource => d.wrapperSource.isSome

/-- The configuration with the given values and the defaults of the other keys. -/
def toConfig (d : Draft) : Config where
  origins := d.origins.getD ({} : Config).origins
  wrapperName := d.wrapperName.getD ({} : Config).wrapperName
  wrapperSource := d.wrapperSource.getD ({} : Config).wrapperSource

end Draft

/-- Reads the value of a key. -/
def readValue (d : Draft) (key : Key) (s : List Char) : Except ReadError (Draft × List Char) :=
  match key with
  | .origins =>
    match readSequence s with
    | .error e => .error e
    | .ok (origins, r) => .ok ({ d with origins }, r)
  | .wrapperName =>
    match readString s with
    | .error e => .error e
    | .ok (wrapperName, r) => .ok ({ d with wrapperName }, r)
  | .wrapperSource =>
    match readString s with
    | .error e => .error e
    | .ok (wrapperSource, r) => .ok ({ d with wrapperSource }, r)

/-- Reading a value consumes some of the text. -/
theorem length_readValue {d d' : Draft} {key : Key} {s r : List Char}
    (h : readValue d key s = .ok (d', r)) : r.length < s.length := by
  unfold readValue at h
  split at h
  · split at h
    · cases h
    · rename_i hr
      cases h
      exact length_readSequence hr
  · split at h
    · cases h
    · rename_i hr
      cases h
      exact length_readString hr
  · split at h
    · cases h
    · rename_i hr
      cases h
      exact length_readString hr

/-! ### Values by position -/

/-- Reads the values of the given keys by position, behind the opening bracket. The values at the
end may be left out. -/
def readPositional (d : Draft) (first : Bool) :
    List Key → List Char → Except ReadError (Draft × List Char)
  | [], s =>
    match endItems ']' s with
    | .error e => .error e
    | .ok r => .ok (d, r)
  | key :: keys, s =>
    match nextItem ']' first s with
    | .error e => .error e
    | .ok (.done r) => .ok (d, r)
    | .ok (.more r) =>
      match readValue d key r with
      | .error e => .error e
      | .ok (d, rest) => readPositional d false keys rest

/-! ### Values by key -/

/-- The key of the given name, unless its value has been given before. -/
def freshKey (d : Draft) (name : String) : Except ReadError Key :=
  match Key.ofName? name with
  | none => .error (.unknownField name (Key.all.map Key.name))
  | some key => if d.has key then .error (.duplicateField name) else .ok key

/-- Reads the colon between a key and its value. -/
def readColon (s : List Char) : Except ReadError (List Char) :=
  match skipBlanks s with
  | [] => .error .endOfInput
  | ':' :: r => .ok r
  | _ => .error .illFormed

/-- Reads a member, which must start with the quote of its key. -/
def readMember (d : Draft) : List Char → Except ReadError (Draft × List Char)
  | '"' :: s =>
    match readChars s with
    | .error e => .error e
    | .ok (cs, r) =>
      match freshKey d (String.ofList cs) with
      | .error e => .error e
      | .ok key =>
        match readColon r with
        | .error e => .error e
        | .ok u => readValue d key u
  | _ => .error .illFormed

/-- Reading a colon consumes some of the text. -/
theorem length_readColon {s r : List Char} (h : readColon s = .ok r) : r.length < s.length := by
  have hs := length_skipBlanks_le s
  unfold readColon at h
  split at h
  · cases h
  · rename_i u hu
    rw [hu] at hs
    cases h
    simp only [List.length_cons] at hs
    omega
  · cases h

/-- Reading a member consumes some of the text. -/
theorem length_readMember {d d' : Draft} {s r : List Char} (h : readMember d s = .ok (d', r)) :
    r.length < s.length := by
  unfold readMember at h
  split at h
  · split at h
    · cases h
    · rename_i hr
      have := length_readChars hr
      split at h
      · cases h
      · split at h
        · cases h
        · rename_i hu
          have := length_readColon hu
          have := length_readValue h
          simp only [List.length_cons]
          omega
  · cases h

/-- Reads the members of an object, behind its opening brace. -/
def readMembers (d : Draft) (first : Bool) (s : List Char) :
    Except ReadError (Draft × List Char) :=
  match _hn : nextItem '}' first s with
  | .error e => .error e
  | .ok (.done r) => .ok (d, r)
  | .ok (.more r) =>
    match _hm : readMember d r with
    | .error e => .error e
    | .ok (d, rest) => readMembers d false rest
termination_by s.length
decreasing_by exact Nat.lt_of_lt_of_le (length_readMember _hm) (length_nextItem_more _hn)

/-! ### Whole texts -/

/-- Reads the values of a configuration in either form. -/
def readDraft (s : List Char) : Except ReadError (Draft × List Char) :=
  match skipBlanks s with
  | [] => .error .endOfInput
  | '[' :: r => readPositional {} true Key.all r
  | '\x7b' :: r => readMembers {} true r
  | r => .error (mismatch (.record "Config") r)

/-- Reads a configuration; only blanks may follow it. -/
def read (text : String) : Except ReadError Config :=
  match readDraft text.toList with
  | .error e => .error e
  | .ok (d, r) =>
    match skipBlanks r with
    | [] => .ok d.toConfig
    | _ => .error .illFormed

end HookLabel.Config
