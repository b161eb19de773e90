import HookLabel.Tree.Basic
import Mathlib.Tactic.Lemma

/-!
# Traversals of a tree

What is proved of every tree goes by induction on its parts, and what is done to every part of a
tree is one traversal from the bottom up.

`mapFields` changes each field of a node and `modifyField` one of them; the lemmas say how the two
act on each other and on `field`.  `Tree.partsInduction` is induction on the parts of a tree, with
one hypothesis for all items of a list and one for all fields of a node.  `Tree.rebuild` makes each
node anew from its fields as they were and as they have become.
-/

namespace HookLabel

/-! ### Changing fields -/

/-- Changes every field and keeps its name. -/
def mapFields (f : Tree → Tree) (fs : Fields) : Fields :=
  fs.map fun p => (p.1, f p.2)

/-- Changes the field of the given name and leaves the rest; an absent field stays absent. -/
def modifyField (name : String) (f : Tree → Tree) (fs : Fields) : Fields :=
  setField name (f (field name fs)) fs

/-- Replacing a field by a tree of which `g` says the same changes nothing that `g` says. -/
lemma map_setField {β : Type} {g : String → Tree → β} {name : String} {new : Tree} {fs : Fields}
    (h : g name new = g name (field name fs)) :
    ((setField name new fs).map fun p => (p.1, g p.1 p.2)) = fs.map fun p => (p.1, g p.1 p.2) := by
  induction fs with
  | nil => rfl
  | cons p fs ih =>
    obtain ⟨n, t⟩ := p
    by_cases hn : n = name
    · subst hn
      simp only [field, if_true] at h
      simp only [setField, if_true, List.map_cons, h]
    · simp only [field, if_neg hn] at h
      simp only [setField, if_neg hn, List.map_cons, ih h]

/-- Changing every field, by a change that depends on its name, after one has been replaced. -/
lemma map_setField_eq (f : String → Tree → Tree) (name : String) (new : Tree) (fs : Fields) :
    ((setField name new fs).map fun p => (p.1, f p.1 p.2)) =
      setField name (f name new) (fs.map fun p => (p.1, f p.1 p.2)) := by
  induction fs with
  | nil => rfl
  | cons p fs ih =>
    obtain ⟨n, t⟩ := p
    by_cases hn : n = name
    · simp only [setField, hn, if_true, List.map_cons]
    · simp only [setField, if_neg hn, List.map_cons, ih]

/-- Reading a field after such a change: an absent field reads as `null` before and after. -/
lemma field_map {f : String → Tree → Tree} {name : String} (h : f name .null = .null)
    (fs : Fields) : field name (fs.map fun p => (p.1, f p.1 p.2)) = f name (field name fs) := by
  induction fs with
  | nil => exact h.symm
  | cons p fs ih =>
    obtain ⟨n, t⟩ := p
    by_cases hn : n = name
    · simp only [List.map_cons, field, hn, if_true]
    · simpa only [List.map_cons, field, if_neg hn] using ih

/-- A field of changed fields is the changed field. -/
lemma field_mapFields {f : Tree → Tree} (h : f .null = .null) (name : String) (fs : Fields) :
    field name (mapFields f fs) = f (field name fs) :=
  field_map (f := fun _ => f) h fs

/-- Reading the field that was changed: it is present, or it reads as `null` before and after. -/
lemma field_modifyField {f : Tree → Tree} (h : f .null = .null) (name : String) (fs : Fields) :
    field name (modifyField name f fs) = f (field name fs) := by
  induction fs with
  | nil => exact h.symm
  | cons p fs ih =>
    obtain ⟨n, t⟩ := p
    by_cases hn : n = name
    · simp only [modifyField, field, setField, if_pos hn]
    · simpa only [modifyField, field, setField, if_neg hn] using ih

/-- Reading a field that is present after it has been replaced. -/
lemma field_setField {name : String} {fs : Fields} (h : field name fs ≠ .null) (new : Tree) :
    field name (setField name new fs) = new := by
  induction fs with
  | nil => exact absurd rfl h
  | cons p fs ih =>
    obtain ⟨n, t⟩ := p
    by_cases hn : n = name
    · simp only [field, setField, if_pos hn]
    · simp only [field, if_neg hn] at h
      simp only [field, setField, if_neg hn, ih h]

/-- Reading another field than the one that was changed. -/
lemma field_modifyField_of_ne {name other : String} (h : other ≠ name) (f : Tree → Tree)
    (fs : Fields) : field other (modifyField name f fs) = field other fs :=
  field_setField_of_ne h _ fs

/-- A field that is replaced twice holds what it was given last. -/
lemma setField_setField (name : String) (a b : Tree) (fs : Fields) :
    setField name b (setField name a fs) = setField name b fs := by
  induction fs with
  | nil => rfl
  | cons p fs ih =>
    obtain ⟨n, t⟩ := p
    by_cases hn : n = name
    · simp only [setField, if_pos hn]
    · simp only [setField, if_neg hn, ih]

/-- Two different fields can be replaced in either order. -/
lemma setField_comm {name other : String} (h : other ≠ name) (a b : Tree) (fs : Fields) :
    setField other b (setField name a fs) = setField name a (setField other b fs) := by
  induction fs with
  | nil => rfl
  | cons p fs ih =>
    obtain ⟨n, t⟩ := p
    by_cases hn : n = name
    · have ho : ¬ n = other := fun e => h (e.symm.trans hn)
      simp only [setField, if_pos hn, if_neg ho]
    · by_cases ho : n = other
      · simp only [setField, if_neg hn, if_pos ho]
      · simp only [setField, if_neg hn, if_neg ho, ih]

/-- Two different fields can be changed in either order. -/
lemma modifyField_comm {name other : String} (h : other ≠ name) (f g : Tree → Tree) (fs : Fields) :
    modifyField other g (modifyField name f fs) = modifyField name f (modifyField other g fs) := by
  unfold modifyField
  rw [field_setField_of_ne h, field_setField_of_ne h.symm, setField_comm h]

/-- Changing a field twice changes it by the composition. -/
lemma modifyField_modifyField {f : Tree → Tree} (h : f .null = .null) (name : String)
    (g : Tree → Tree) (fs : Fields) :
    modifyField name g (modifyField name f fs) = modifyField name (g ∘ f) fs := by
  have hread : field name (modifyField name f fs) = f (field name fs) := field_modifyField h name fs
  rw [modifyField, hread, modifyField, setField_setField]
  rfl

/-- A change of one field passes through a change of all fields with which it commutes there. -/
lemma mapFields_modifyField {f g : Tree → Tree} {name : String} {fs : Fields}
    (hnull : f .null = .null) (hcomm : f (g (field name fs)) = g (f (field name fs))) :
    mapFields f (modifyField name g fs) = modifyField name g (mapFields f fs) := by
  have hset : mapFields f (setField name (g (field name fs)) fs) =
      setField name (f (g (field name fs))) (mapFields f fs) :=
    map_setField_eq (fun _ => f) name _ fs
  rw [modifyField, modifyField, hset, hcomm, field_mapFields hnull]

/-- Changing no field changes nothing. -/
lemma mapFields_id {f : Tree → Tree} {fs : Fields} (h : ∀ p ∈ fs, f p.2 = p.2) :
    mapFields f fs = fs := by
  refine (List.map_congr_left fun p hp => ?_).trans (List.map_id fs)
  rw [h p hp]
  rfl

namespace Tree

/-! ### Induction on the parts of a tree -/

/-- Induction on the parts of a tree. -/
@[elab_as_elim]
theorem partsInduction {motive : Tree → Prop} (null : motive null) (bool : ∀ b, motive (bool b))
    (num : ∀ m d, motive (num m d)) (str : ∀ s, motive (str s))
    (list : ∀ ts : List Tree, (∀ t ∈ ts, motive t) → motive (list ts))
    (node : ∀ (kind : Kind) (fs : Fields), (∀ p ∈ fs, motive p.2) → motive (node kind fs))
    (t : Tree) : motive t :=
  @Tree.rec motive (fun ts => ∀ t ∈ ts, motive t) (fun fs => ∀ p ∈ fs, motive p.2)
    (fun p => motive p.2) null bool num str list node
    (fun _ h => nomatch h)
    (fun _ _ first later _ h => by
      rcases List.mem_cons.mp h with rfl | h
      · exact first
      · exact later _ h)
    (fun _ h => nomatch h)
    (fun _ _ first later _ h => by
      rcases List.mem_cons.mp h with rfl | h
      · exact first
      · exact later _ h)
    (fun _ _ h => h) t

/-! ### Rebuilding a tree -/

mutual

/-- Rebuilds a tree from the bottom up: `make` makes each node from its kind, its fields as they
were, and its fields as they have become. -/
def rebuild (make : Kind → Fields → Fields → Tree) : Tree → Tree
  | node kind fs => make kind fs (rebuildFields make fs)
  | list ts => list (rebuildList make ts)
  | t => t

/-- Rebuilds each tree of a list. -/
def rebuildList (make : Kind → Fields → Fields → Tree) : List Tree → List Tree
  | [] => []
  | t :: ts => rebuild make t :: rebuildList make ts

/-- Rebuilds each field of a node. -/
def rebuildFields (make : Kind → Fields → Fields → Tree) :
    List (String × Tree) → List (String × Tree)
  | [] => []
  | (name, t) :: fs => (name, rebuild make t) :: rebuildFields make fs

end

section Rebuild

variable (make : Kind → Fields → Fields → Tree)

/-- The trees of a list are rebuilt one by one. -/
lemma rebuildList_eq_map (ts : List Tree) : rebuildList make ts = ts.map (rebuild make) := by
  induction ts with
  | nil => rfl
  | cons t ts ih => rw [rebuildList, ih, List.map_cons]

/-- The fields of a node are rebuilt one by one. -/
lemma rebuildFields_eq_mapFields (fs : Fields) :
    rebuildFields make fs = mapFields (rebuild make) fs := by
  induction fs with
  | nil => rfl
  | cons p fs ih =>
    obtain ⟨n, t⟩ := p
    rw [rebuildFields, ih]
    rfl

/-- A node is made anew of its rebuilt fields. -/
lemma rebuild_node (kind : Kind) (fs : Fields) :
    rebuild make (node kind fs) = make kind fs (mapFields (rebuild make) fs) := by
  rw [rebuild, rebuildFields_eq_mapFields]

/-- The items of a list are rebuilt one by one. -/
lemma rebuild_list (ts : List Tree) : rebuild make (list ts) = list (ts.map (rebuild make)) := by
  rw [rebuild, rebuildList_eq_map]

end Rebuild

end Tree

end HookLabel
