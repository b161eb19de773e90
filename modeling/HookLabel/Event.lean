import HookLabel.Hook

/-!
# Events

What labelling reports about its work. `Event.sorted` is the order in which events are shown, which
does not depend on the order in which the calls were met.
-/

namespace HookLabel

/-- How important an event is. -/
inductive Level where
  | debug
  | trace
deriving DecidableEq, Repr

/-- A step of the work that is reported. -/
inductive Event where
  /-- A call of the hook was labelled. -/
  | labelled (hook : Hook) (label : String)
  /-- A call of the hook was left as it is, because nothing is bound to its result. -/
  | leftUnbound (hook : Hook)
  /-- The import of the helper was added, after so many calls had been labelled. -/
  | imported (labelCount : Nat) (source : String)
deriving DecidableEq, Repr

namespace Event

/-- The importance of an event. -/
def level : Event → Level
  | labelled .. => .debug
  | leftUnbound .. => .trace
  | imported .. => .debug

/-- The text of an event. -/
def message : Event → String
  | labelled .. => "labelling hook call"
  | leftUnbound .. => "hook result is not bound; leaving call as is"
  | imported .. => "injected hook label helper import"

/-- The hook that an event is about. -/
def hook? : Event → Option Hook
  | labelled hook _ => some hook
  | leftUnbound hook => some hook
  | imported .. => none

/-- The label that an event is about. -/
def label? : Event → Option String
  | labelled _ label => some label
  | leftUnbound _ => none
  | imported .. => none

/-- Whether a text comes before another one, by the code points of their characters. -/
def textBefore (s t : String) : Bool :=
  s.toList.lex t.toList fun c d => decide (c.toNat < d.toNat)

/-- What events are ordered by: message, then hook, then label, where a missing one comes first. -/
def sortKey (e : Event) : List String :=
  [e.message, (e.hook?.map Hook.name).getD "", e.label?.getD ""]

/-- Whether an event is shown before another one. -/
def before (a b : Event) : Bool := a.sortKey.lex b.sortKey textBefore

/-- The events in the order in which they are shown. -/
def sorted (es : List Event) : List Event := es.mergeSort fun a b => !b.before a

end Event

/-! ### Logs -/

/-- The number of labelled calls, and the events in the order in which they happened. -/
structure Log where
  labelCount : Nat := 0
  events : List Event := []
deriving DecidableEq, Repr

namespace Log

instance : EmptyCollection Log := ⟨{}⟩

instance : Append Log where
  append a b := { labelCount := a.labelCount + b.labelCount, events := a.events ++ b.events }

/-- Whether any call was labelled. -/
def isDirty (log : Log) : Bool := 0 < log.labelCount

/-- The empty log counts no calls. -/
@[simp] theorem labelCount_empty : (∅ : Log).labelCount = 0 := rfl

/-- The empty log has no events. -/
@[simp] theorem events_empty : (∅ : Log).events = [] := rfl

/-- One log behind another counts the calls of both. -/
@[simp] theorem labelCount_append (a b : Log) :
    (a ++ b).labelCount = a.labelCount + b.labelCount := rfl

/-- One log behind another has its events behind those of the other. -/
@[simp] theorem events_append (a b : Log) : (a ++ b).events = a.events ++ b.events := rfl

end Log

end HookLabel
