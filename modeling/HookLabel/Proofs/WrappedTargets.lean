import HookLabel.Proofs.NameDepths
import HookLabel.Proofs.Readings

/-!
# Parentheses and type annotations around a target

An expression such as `(x)` or `x as T` assigns to `x`.  `Tree.Unwraps` puts the bare identifier in
the place of such an expression, which may be the whole target of an assignment or lie anywhere in
a pattern.

As the whole target, and as the whole head of a `for` loop, the expression counts as the identifier.
Within a pattern it does not: the search for names passes over expressions, so the bare identifier
adds its name to what the pattern binds (`Tree.Unwraps.bindingNames`), and an array or object
pattern that contains a wrapped identifier is another context than without the parentheses
(`Tree.Unwraps.contexts_eq_iff`).
-/

namespace HookLabel

open BindingContext

namespace Tree

/-! ### Removing what is around an identifier -/

/-- One tree is the other with the identifier `x` in the place of one of its targets, an expression
that assigns to `x` without being an identifier itself.  Targets are the elements of an array
pattern, the values and the rest of an object pattern, rest elements and what has a default. -/
inductive Unwraps (x : Ident) : Tree → Tree → Prop where
  | leaf {e i : Tree} (hwrapped : e.ident? = none) (hassigned : e.assigned? = some x)
      (hident : i.ident? = some x) : Unwraps x e i
  | element {fs : Fields} {before after : List Tree} {t u : Tree}
      (helements : field "elements" fs = .list (before ++ t :: after)) (h : Unwraps x t u) :
      Unwraps x (node .arrayPattern fs)
        (node .arrayPattern (setField "elements" (.list (before ++ u :: after)) fs))
  | property {fs ps : Fields} {before after : List Tree} {kind : Kind} {name : String} {u : Tree}
      (hkind : kind = .keyValuePatternProperty ∧ name = "value" ∨
        kind = .restElement ∧ name = "argument")
      (hproperties : field "properties" fs = .list (before ++ node kind ps :: after))
      (h : Unwraps x (field name ps) u) :
      Unwraps x (node .objectPattern fs) (node .objectPattern
        (setField "properties" (.list (before ++ node kind (setField name u ps) :: after)) fs))
  | target {fs : Fields} {kind : Kind} {name : String} {u : Tree}
      (hkind : kind = .assignmentPattern ∧ name = "left" ∨
        kind = .restElement ∧ name = "argument")
      (h : Unwraps x (field name fs) u) : Unwraps x (node kind fs) (node kind (setField name u fs))

/-- What assigns to an identifier without being one is an identifier with something around it. -/
lemma exists_transparent {e : Tree} {x : Ident} (hwrapped : e.ident? = none)
    (hassigned : e.assigned? = some x) : ∃ kind fs, e = node kind fs ∧ kind.isTransparent := by
  cases e with
  | node kind fs =>
    by_cases hkind : kind = .identifier
    · subst hkind
      cases hwrapped
    · by_cases htransparent : kind.isTransparent
      · exact ⟨kind, fs, rfl, htransparent⟩
      · have hnone : (node kind fs).assigned? = none := by
          rw [assigned?, if_neg htransparent]
          exact hkind
        rw [hnone] at hassigned
        cases hassigned
  | null | bool b | num m d | str s | list ts =>
    rw [assigned?_of_not_node (by simp)] at hassigned
    cases hassigned

/-- A wrapped name is a pattern that assigns to the name and binds nothing. -/
lemma pattern_of_assigned? {e : Tree} {x : Ident} (hwrapped : e.ident? = none)
    (hassigned : e.assigned? = some x) : e.pattern = .expression (some x) := by
  obtain ⟨kind, fs, rfl, htransparent⟩ := exists_transparent hwrapped hassigned
  rw [← hassigned]
  refine pattern_of_not_pattern ?_ fs
  intro hkind
  simp only [List.mem_cons, List.not_mem_nil, or_false] at hkind
  rcases hkind with rfl | rfl | rfl | rfl | rfl <;> cases htransparent

/-- A list that is put in the place of a list is read there. -/
lemma field_setField_of_list {name : String} {fs : Fields} {ts : List Tree}
    (h : field name fs = .list ts) (us : List Tree) :
    field name (setField name (.list us) fs) = .list us := by
  refine field_setField ?_ (.list us)
  rw [h]
  exact Tree.noConfusion

/-- An entry that `f` lists for one item of a list is listed for the whole list. -/
lemma flatMap_insert {α β : Type} {f : α → List β} {a b : α} {left right : List β} {n : β}
    (ha : f a = left ++ right) (hb : f b = left ++ n :: right) (before after : List α) :
    (before ++ a :: after).flatMap f =
        (before.flatMap f ++ left) ++ (right ++ after.flatMap f) ∧
      (before ++ b :: after).flatMap f =
        (before.flatMap f ++ left) ++ n :: (right ++ after.flatMap f) := by
  simp only [List.flatMap_append, List.flatMap_cons, ha, hb, List.append_assoc, List.cons_append,
    and_self]

namespace Unwraps

variable {x : Ident} {t u : Tree}

/-- What has a wrapped name in it is not absent. -/
lemma ne_null (h : Unwraps x t u) : t ≠ .null := by
  rintro rfl
  cases h with
  | leaf hwrapped hassigned hident =>
    obtain ⟨kind, fs, heq, -⟩ := exists_transparent hwrapped hassigned
    cases heq

/-- The field that holds a target holds the other one after it has been replaced. -/
lemma field_setField {name : String} {fs : Fields} (h : Unwraps x (field name fs) u) :
    field name (setField name u fs) = u :=
  HookLabel.field_setField h.ne_null u

/-! ### The names of the pattern -/

/-- The traversal lists one more name, that of the identifier, and the others as before. -/
lemma namesAt (h : Unwraps x t u) (depth : Nat) :
    ∃ before n after, n.name = x.name ∧ t.pattern.namesAt depth = before ++ after ∧
      u.pattern.namesAt depth = before ++ n :: after := by
  induction h generalizing depth with
  | leaf hwrapped hassigned hident =>
    rw [pattern_of_assigned? hwrapped hassigned, pattern_of_ident? hident]
    exact ⟨[], ⟨depth, x.name⟩, [], rfl, rfl, rfl⟩
  | @element fs before after t u helements h ih =>
    obtain ⟨left, n, right, hn, ht, hu⟩ := ih (depth + 1)
    have hreplaced := field_setField_of_list helements (before ++ u :: after)
    rw [pattern_array, pattern_array, helements, hreplaced, Pattern.namesAt, Pattern.namesAt,
      Pattern.namesAtOfList_eq, Pattern.namesAtOfList_eq, List.flatMap_map, List.flatMap_map]
    have hinsert := flatMap_insert (f := fun e : Tree => e.pattern.namesAt (depth + 1)) ht hu
    exact ⟨_, n, _, hn, hinsert before after⟩
  | @property fs ps before after kind name u hkind hproperties h ih =>
    obtain ⟨left, n, right, hn, ht, hu⟩ := ih (depth + 2)
    have hreplaced := field_setField_of_list hproperties
      (before ++ node kind (setField name u ps) :: after)
    have hproperty : (node kind ps).property.namesAt (depth + 1) = left ++ right ∧
        (node kind (setField name u ps)).property.namesAt (depth + 1) = left ++ n :: right := by
      rcases hkind with ⟨rfl, rfl⟩ | ⟨rfl, rfl⟩
      · rw [Tree.property, Tree.property, h.field_setField]
        exact ⟨ht, hu⟩
      · rw [Tree.property, Tree.property, h.field_setField]
        exact ⟨ht, hu⟩
    rw [pattern_object, pattern_object, hproperties, hreplaced, Pattern.namesAt, Pattern.namesAt,
      Property.namesAtOfList_eq, Property.namesAtOfList_eq, List.flatMap_map, List.flatMap_map]
    have hinsert := flatMap_insert (f := fun q : Tree => q.property.namesAt (depth + 1))
      hproperty.1 hproperty.2
    exact ⟨_, n, _, hn, hinsert before after⟩
  | @target fs kind name u hkind h ih =>
    obtain ⟨left, n, right, hn, ht, hu⟩ := ih (depth + 1)
    refine ⟨left, n, right, hn, ?_⟩
    rcases hkind with ⟨rfl, rfl⟩ | ⟨rfl, rfl⟩
    · rw [pattern, pattern, h.field_setField]
      exact ⟨ht, hu⟩
    · rw [pattern, pattern, h.field_setField]
      exact ⟨ht, hu⟩

/-- The pattern binds one more name, that of the identifier, and the others in their order. -/
lemma bindingNames (h : Unwraps x t u) :
    ∃ front back, t.pattern.bindingNames = front ++ back ∧
      u.pattern.bindingNames = front ++ x.name :: back := by
  obtain ⟨before, n, after, hn, ht, hu⟩ := h.namesAt 0
  obtain ⟨front, back, hwithout, hwith⟩ :
      ∃ front back, sortBy DeepName.depth (before ++ after) = front ++ back ∧
        sortBy DeepName.depth (before ++ n :: after) = front ++ n :: back :=
    exists_sortBy_insert before after n
  refine ⟨front.map DeepName.name, back.map DeepName.name, ?_, ?_⟩
  · rw [Pattern.bindingNames_eq, ht, hwithout, List.map_append]
  · rw [Pattern.bindingNames_eq, hu, hwith, List.map_append, List.map_cons, hn]

/-- Unwrapping the name changes which names are bound. -/
lemma bindingNames_ne (h : Unwraps x t u) : t.pattern.bindingNames ≠ u.pattern.bindingNames := by
  obtain ⟨front, back, ht, hu⟩ := h.bindingNames
  intro heq
  have hlength := congrArg List.length (ht.symm.trans (heq.trans hu))
  simp only [List.length_append, List.length_cons] at hlength
  omega

/-- The first name of the pattern stays the same, or is now that of the identifier. -/
lemma head?_bindingNames (h : Unwraps x t u) :
    u.pattern.bindingNames.head? = t.pattern.bindingNames.head? ∨
      u.pattern.bindingNames.head? = some x.name := by
  obtain ⟨front, back, ht, hu⟩ := h.bindingNames
  rw [ht, hu]
  cases front with
  | nil => exact .inr rfl
  | cons first front => exact .inl rfl

/-! ### The contexts -/

/-- The two patterns have the same form, apart from the expression and the identifier itself. -/
lemma pattern_cases (h : Unwraps x t u) :
    (t.pattern = .expression (some x) ∧ u.pattern = .name x) ∨
    (∃ ps qs, t.pattern = .array ps ∧ u.pattern = .array qs) ∨
    (∃ ps qs, t.pattern = .object ps ∧ u.pattern = .object qs) ∨
    (∃ p q, t.pattern = .withDefault p ∧ u.pattern = .withDefault q) ∨
    ∃ p q, t.pattern = .rest p ∧ u.pattern = .rest q := by
  cases h with
  | leaf hwrapped hassigned hident =>
    exact .inl ⟨pattern_of_assigned? hwrapped hassigned, pattern_of_ident? hident⟩
  | element helements h => exact .inr (.inl ⟨_, _, pattern_array _, pattern_array _⟩)
  | property hkind hproperties h =>
    exact .inr (.inr (.inl ⟨_, _, pattern_object _, pattern_object _⟩))
  | @target fs kind name u hkind h =>
    rcases hkind with ⟨rfl, rfl⟩ | ⟨rfl, rfl⟩
    · exact .inr (.inr (.inr (.inl ⟨_, _, by rw [pattern], by rw [pattern]⟩)))
    · exact .inr (.inr (.inr (.inr ⟨_, _, by rw [pattern], by rw [pattern]⟩)))

/-- Both patterns are rest elements under their defaults, or neither is. -/
lemma belowDefaults_eq_rest_iff (h : Unwraps x t u) :
    (∃ p, t.pattern.belowDefaults = .rest p) ↔ ∃ p, u.pattern.belowDefaults = .rest p := by
  induction h with
  | leaf hwrapped hassigned hident =>
    rw [pattern_of_assigned? hwrapped hassigned, pattern_of_ident? hident]
    exact ⟨nofun, nofun⟩
  | element helements h ih =>
    rw [pattern_array, pattern_array]
    exact ⟨nofun, nofun⟩
  | property hkind hproperties h ih =>
    rw [pattern_object, pattern_object]
    exact ⟨nofun, nofun⟩
  | target hkind h ih =>
    rcases hkind with ⟨rfl, rfl⟩ | ⟨rfl, rfl⟩
    · rw [pattern, pattern, h.field_setField]
      exact ih
    · rw [pattern, pattern]
      exact ⟨fun _ => ⟨_, rfl⟩, fun _ => ⟨_, rfl⟩⟩

/-- The context of a pattern stays exactly if the pattern is a rest element, defaults aside. -/
lemma ofPattern_eq_iff (h : Unwraps x t u) :
    ofPattern t.pattern = ofPattern u.pattern ↔ ∃ p, t.pattern.belowDefaults = .rest p := by
  constructor
  · intro heq
    by_contra hrest
    have hrest' := mt h.belowDefaults_eq_rest_iff.mpr hrest
    have ht := names_ofPattern (not_exists.mp hrest)
    have hu := names_ofPattern (not_exists.mp hrest')
    rw [heq, hu] at ht
    exact h.bindingNames_ne ht.symm
  · intro hrest
    obtain ⟨p, ht⟩ := hrest
    obtain ⟨q, hu⟩ := h.belowDefaults_eq_rest_iff.mp ⟨p, ht⟩
    rw [ofPattern_of_rest ht, ofPattern_of_rest hu]

/-- Where the contexts are those of the patterns, or the same, the label stays the same or becomes
the name of the identifier. -/
lemma label?_of_eq_ofPattern (h : Unwraps x t u) {a b : BindingContext}
    (hab : a = b ∨ a = ofPattern t.pattern ∧ b = ofPattern u.pattern) :
    b.label? = a.label? ∨ b.label? = some x.name := by
  rcases hab with rfl | ⟨rfl, rfl⟩
  · exact .inl rfl
  · by_cases hrest : ∃ p, t.pattern.belowDefaults = .rest p
    · exact .inl (congrArg label? (h.ofPattern_eq_iff.mpr hrest).symm)
    · have hrest' := mt h.belowDefaults_eq_rest_iff.mpr hrest
      rw [label?_ofPattern (not_exists.mp hrest), label?_ofPattern (not_exists.mp hrest')]
      exact h.head?_bindingNames

/-- An assigned array or object pattern counts as any pattern, and any other target as it does
without what is around the identifier. -/
lemma ofAssignTarget_cases (h : Unwraps x t u) :
    (((∀ ps, t.pattern ≠ .array ps) ∧ ∀ qs, t.pattern ≠ .object qs) ∧
      ofAssignTarget t.pattern = ofAssignTarget u.pattern) ∨
    (((∃ ps, t.pattern = .array ps) ∨ ∃ qs, t.pattern = .object qs) ∧
      ofAssignTarget t.pattern = ofPattern t.pattern ∧
        ofAssignTarget u.pattern = ofPattern u.pattern) := by
  rcases h.pattern_cases with ⟨ht, hu⟩ | ⟨ps, qs, ht, hu⟩ | ⟨ps, qs, ht, hu⟩ | ⟨p, q, ht, hu⟩ |
    ⟨p, q, ht, hu⟩
  · rw [ht, hu]
    exact .inl ⟨⟨nofun, nofun⟩, rfl⟩
  · rw [ht, hu]
    exact .inr ⟨.inl ⟨ps, rfl⟩, rfl, rfl⟩
  · rw [ht, hu]
    exact .inr ⟨.inr ⟨ps, rfl⟩, rfl, rfl⟩
  · rw [ht, hu]
    exact .inl ⟨⟨nofun, nofun⟩, rfl⟩
  · rw [ht, hu]
    exact .inl ⟨⟨nofun, nofun⟩, rfl⟩

/-- The context of a target stays exactly if the target is neither an array nor an object. -/
lemma ofAssignTarget_eq_iff (h : Unwraps x t u) :
    ofAssignTarget t.pattern = ofAssignTarget u.pattern ↔
      (∀ ps, t.pattern ≠ .array ps) ∧ ∀ qs, t.pattern ≠ .object qs := by
  rcases h.ofAssignTarget_cases with ⟨hplain, heq⟩ | ⟨hgroup, ht, hu⟩
  · exact ⟨fun _ => hplain, fun _ => heq⟩
  · have hrest : ¬ ∃ p, t.pattern.belowDefaults = .rest p := by
      rcases hgroup with ⟨ps, hps⟩ | ⟨qs, hqs⟩
      · rw [hps]
        nofun
      · rw [hqs]
        nofun
    rw [ht, hu, h.ofPattern_eq_iff]
    refine ⟨fun h => absurd h hrest, fun hplain => ?_⟩
    rcases hgroup with ⟨ps, hps⟩ | ⟨qs, hqs⟩
    · exact absurd hps (hplain.1 ps)
    · exact absurd hqs (hplain.2 qs)

/-- Neither of the two trees declares anything. -/
lemma forHead (h : Unwraps x t u) :
    t.forHead = .pattern t.pattern ∧ u.forHead = .pattern u.pattern := by
  cases h with
  | leaf hwrapped hassigned hident =>
    obtain ⟨kind, fs, rfl, htransparent⟩ := exists_transparent hwrapped hassigned
    constructor
    · refine forHead_of_not_declaration ?_ ?_ fs <;> rintro rfl <;> cases htransparent
    · unfold ident? at hident
      split at hident
      · rfl
      · cases hident
  | element helements h | property hkind hproperties h =>
    constructor <;> exact forHead_of_not_declaration (by decide) (by decide) _
  | target hkind h =>
    rcases hkind with ⟨rfl, rfl⟩ | ⟨rfl, rfl⟩ <;> constructor <;>
      exact forHead_of_not_declaration (by decide) (by decide) _

/-- A wrapped identifier that is the head of a loop counts as the identifier, and any other head as
its pattern does. -/
lemma ofForHead_cases (h : Unwraps x t u) :
    (t.pattern = .expression (some x) ∧ ofForHead t.forHead = ofForHead u.forHead) ∨
    (t.pattern ≠ .expression (some x) ∧ ofForHead t.forHead = ofPattern t.pattern ∧
      ofForHead u.forHead = ofPattern u.pattern) := by
  obtain ⟨hheadT, hheadU⟩ := h.forHead
  rcases h.pattern_cases with ⟨ht, hu⟩ | ⟨ps, qs, ht, hu⟩ | ⟨ps, qs, ht, hu⟩ | ⟨p, q, ht, hu⟩ |
    ⟨p, q, ht, hu⟩
  · rw [hheadT, hheadU, ht, hu]
    exact .inl ⟨rfl, rfl⟩
  all_goals
    rw [hheadT, hheadU, ht, hu]
    exact .inr ⟨nofun, rfl, rfl⟩

/-- What the parentheses and type annotations around an identifier change.  Without them the
pattern binds one name more.  The context of an assigned value stays the same exactly if the target
is no array or object pattern; that of the values of a loop, if its head is the wrapped identifier
as a whole; and that of a pattern never does, apart from rest elements, whose value is not bound.
The label stays the same or becomes the name of the identifier. -/
theorem contexts_eq_iff (h : Unwraps x t u) :
    (∃ front back, t.pattern.bindingNames = front ++ back ∧
      u.pattern.bindingNames = front ++ x.name :: back) ∧
    (ofAssignTarget t.pattern = ofAssignTarget u.pattern ↔
      (∀ ps, t.pattern ≠ .array ps) ∧ ∀ qs, t.pattern ≠ .object qs) ∧
    (ofForHead t.forHead = ofForHead u.forHead ↔
      t.pattern = .expression (some x) ∨ ∃ p, t.pattern.belowDefaults = .rest p) ∧
    (ofPattern t.pattern = ofPattern u.pattern ↔ ∃ p, t.pattern.belowDefaults = .rest p) ∧
    ((ofAssignTarget u.pattern).label? = (ofAssignTarget t.pattern).label? ∨
      (ofAssignTarget u.pattern).label? = some x.name) ∧
    ((ofForHead u.forHead).label? = (ofForHead t.forHead).label? ∨
      (ofForHead u.forHead).label? = some x.name) ∧
    ((ofPattern u.pattern).label? = (ofPattern t.pattern).label? ∨
      (ofPattern u.pattern).label? = some x.name) := by
  have hhead : ofForHead t.forHead = ofForHead u.forHead ↔
      t.pattern = .expression (some x) ∨ ∃ p, t.pattern.belowDefaults = .rest p := by
    rcases h.ofForHead_cases with ⟨hwhole, heq⟩ | ⟨hpart, ht, hu⟩
    · exact ⟨fun _ => .inl hwhole, fun _ => heq⟩
    · rw [ht, hu, h.ofPattern_eq_iff]
      exact ⟨.inr, fun h => h.resolve_left hpart⟩
  have htargets := h.ofAssignTarget_cases.imp And.right And.right
  have hheads := h.ofForHead_cases.imp And.right And.right
  exact ⟨h.bindingNames, h.ofAssignTarget_eq_iff, hhead, h.ofPattern_eq_iff,
    h.label?_of_eq_ofPattern htargets, h.label?_of_eq_ofPattern hheads,
    h.label?_of_eq_ofPattern (.inr ⟨rfl, rfl⟩)⟩

end Unwraps

/-- The pattern `[e]`. -/
def singleElement (e : Tree) : Tree :=
  node .arrayPattern [("elements", list [e]), ("optional", bool false), ("typeAnnotation", null)]

/-- The expression `(e)`. -/
def parenthesized (e : Tree) : Tree := node .parenthesisExpression [("expression", e)]

/-- Under parentheses a name is assigned to. -/
lemma assigned?_parenthesized (name : String) :
    (parenthesized (reference name)).assigned? = some ⟨name, 0⟩ := by
  simp [parenthesized, reference, assigned?, Kind.isTransparent, field, Ident.ofFields, text,
    natural]

/-- Taking the parentheses away unwraps the name. -/
lemma unwraps_parenthesized (name : String) :
    Unwraps ⟨name, 0⟩ (parenthesized (reference name)) (reference name) :=
  .leaf rfl (assigned?_parenthesized name) (ident?_reference name)

/-- It does so in an array as well. -/
lemma unwraps_singleElement (name : String) :
    Unwraps ⟨name, 0⟩ (singleElement (parenthesized (reference name)))
      (singleElement (reference name)) := by
  have helements : field "elements" (singleElement (parenthesized (reference name))).fields =
      .list ([] ++ parenthesized (reference name) :: []) := rfl
  exact .element helements (unwraps_parenthesized name)

/-- `(x) = useState()` is known as `x`, and `[(x)] = useState()` is not. -/
theorem Unwraps.contexts_eq_iff_of_single_element :
    let wrapped := parenthesized (reference "x")
    let bare := reference "x"
    Unwraps ⟨"x", 0⟩ wrapped bare ∧
      ofAssignTarget wrapped.pattern = ofAssignTarget bare.pattern ∧
    Unwraps ⟨"x", 0⟩ (singleElement wrapped) (singleElement bare) ∧
      ofAssignTarget (singleElement wrapped).pattern ≠
        ofAssignTarget (singleElement bare).pattern := by
  intro wrapped bare
  have hwhole := (unwraps_parenthesized "x").contexts_eq_iff.2.1
  have hpart := (unwraps_singleElement "x").contexts_eq_iff.2.1
  refine ⟨unwraps_parenthesized "x", hwhole.mpr ?_, unwraps_singleElement "x", fun heq => ?_⟩
  · rw [pattern_of_assigned? rfl (assigned?_parenthesized "x")]
    exact ⟨nofun, nofun⟩
  · exact (hpart.mp heq).1 _ (pattern_array _)

/-- So the parentheses around an identifier can change the context. -/
theorem Unwraps.not_ofAssignTarget_eq :
    ¬ ∀ (x : Ident) (t u : Tree), Unwraps x t u →
      ofAssignTarget t.pattern = ofAssignTarget u.pattern := by
  intro h
  have heq := h _ _ _ (unwraps_singleElement "x")
  exact ((unwraps_singleElement "x").ofAssignTarget_eq_iff.mp heq).1 _ (pattern_array _)

end Tree

end HookLabel
