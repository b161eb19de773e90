/-!
# Tracked hooks

The state hooks whose calls are labelled. `Hook.ofName?` reads a name and `Hook.name` writes it.
-/

namespace HookLabel

/-- A tracked hook. -/
inductive Hook where
  | useState
  | useReducer
  | useRef
  | useMemo
deriving DecidableEq, Repr

namespace Hook

/-- Every tracked hook, in the order in which they are listed to users. -/
def all : List Hook := [useState, useReducer, useRef, useMemo]

/-- The name a hook is imported and called by. -/
def name : Hook → String
  | useState => "useState"
  | useReducer => "useReducer"
  | useRef => "useRef"
  | useMemo => "useMemo"

/-- The hook of the given name, if it is tracked. -/
def ofName? : String → Option Hook
  | "useState" => some useState
  | "useReducer" => some useReducer
  | "useRef" => some useRef
  | "useMemo" => some useMemo
  | _ => none

/-- A hook is found by its name. -/
@[simp] theorem ofName?_name (h : Hook) : ofName? h.name = some h := by
  cases h <;> rfl

/-- A hook is found by no other name. -/
theorem ofName?_eq_some_iff {s : String} {h : Hook} : ofName? s = some h ↔ s = h.name := by
  constructor
  · unfold ofName?
    split <;> rintro ⟨⟩ <;> rfl
  · rintro rfl
    exact ofName?_name h

end Hook

end HookLabel
