import HookLabel.Proofs.JsonStrings

/-!
# The texts of groups

A group is a list of items between brackets, with a comma before every item but the first and none
behind the last.  `Items` is what stands behind the opening bracket, and behind an item: it says of
the items that are left which texts they have, up to the closing bracket.

Looking for the next item of a group finds the closing bracket or the item behind its separator
(`nextItem_close`, `nextItem_item`).  So a sequence of strings is read exactly if the text starts
with one (`readSequence_append`, `exists_of_readSequence`).
-/

namespace HookLabel.Json

/-! ### Groups -/

/-- What stands before an item of a group. -/
inductive Separator : (first : Bool) → List Char → Prop where
  | blanks {b : List Char} (hb : Blanks b) : Separator true b
  | comma {b b' : List Char} (hb : Blanks b) (hb' : Blanks b') : Separator false (b ++ ',' :: b')

/-- The items of a group that are left, with the bracket that closes the group; `first` tells that
none stands before them. -/
inductive Items {α : Type} (Item : List Char → α → Prop) (close : Char) :
    (first : Bool) → List Char → List α → Prop where
  | close {first : Bool} {b : List Char} (hb : Blanks b) : Items Item close first (b ++ [close]) []
  | item {first : Bool} {p t s : List Char} {a : α} {as : List α} (hp : Separator first p)
      (ha : Item t a) (h : Items Item close false s as) :
      Items Item close first (p ++ (t ++ s)) (a :: as)

/-- A group of items between brackets. -/
inductive Group {α : Type} (Item : List Char → α → Prop) (left right : Char) :
    List Char → List α → Prop where
  | bracketed {s : List Char} {as : List α} (h : Items Item right true s as) :
      Group Item left right (left :: s) as

/-- Blanks belong to the separator before them. -/
lemma Separator.append {first : Bool} {p b : List Char} (hp : Separator first p) (hb : Blanks b) :
    Separator first (p ++ b) := by
  cases hp with
  | blanks hp => exact .blanks (hp.append hb)
  | comma hp hp' =>
    rw [List.append_assoc]
    exact .comma hp (hp'.append hb)

/-! ### The next item -/

section NextItem

variable {close : Char} {first : Bool}

/-- A text that can be taken for an item of a group: it starts neither with a blank nor with the
closing bracket. -/
def StartsItem (close : Char) (s : List Char) : Prop :=
  ∃ c r, s = c :: r ∧ isBlank c = false ∧ c ≠ close

/-- A group ends at its closing bracket, whether an item stands in it or not. -/
lemma nextItem_close (hclose : isBlank close = false) {b : List Char} (hb : Blanks b)
    (r : List Char) : nextItem close first (b ++ close :: r) = .ok (.done r) := by
  have hskip : skipBlanks (b ++ close :: r) = close :: r := skipBlanks_append_cons hb hclose r
  simp only [nextItem, hskip, if_true]

/-- Behind what separates it from the one before, an item starts. -/
lemma nextItem_item (hclose : ',' ≠ close) {p s : List Char} (hp : Separator first p)
    (hs : StartsItem close s) : nextItem close first (p ++ s) = .ok (.more s) := by
  obtain ⟨c, r, rfl, hblank, hc⟩ := hs
  cases hp with
  | blanks hb =>
    have hskip : skipBlanks (p ++ c :: r) = c :: r := skipBlanks_append_cons hb hblank r
    simp only [nextItem, hskip, if_neg hc, if_true]
  | @comma b b' hb hb' =>
    have hcomma : skipBlanks (b ++ ',' :: b' ++ c :: r) = ',' :: (b' ++ c :: r) := by
      rw [List.append_assoc, List.cons_append, skipBlanks_append_cons hb rfl]
    have hskip : skipBlanks (b' ++ c :: r) = c :: r := skipBlanks_append_cons hb' hblank r
    simp only [nextItem, hcomma, hskip, if_neg hclose, if_neg hc, Bool.false_eq_true, if_false,
      if_true]

/-- A group ends nowhere but at its closing bracket. -/
lemma exists_of_nextItem_done {s r : List Char} (h : nextItem close first s = .ok (.done r)) :
    ∃ b, Blanks b ∧ s = b ++ close :: r := by
  unfold nextItem at h
  split at h
  · cases h
  · rename_i c u hskip
    obtain ⟨-, b, hb, rfl⟩ := skipBlanks_eq_cons_iff.mp hskip
    split at h
    · rename_i hc
      cases h
      exact ⟨b, hb, by rw [hc]⟩
    · split at h
      · cases h
      · split at h
        · split at h
          · cases h
          · split at h <;> cases h
        · cases h

/-- Blanks may stand in front of the closing bracket. -/
lemma endItems_close (hclose : isBlank close = false) {b : List Char} (hb : Blanks b)
    (r : List Char) : endItems close (b ++ close :: r) = .ok r := by
  have hskip : skipBlanks (b ++ close :: r) = close :: r := skipBlanks_append_cons hb hclose r
  simp only [endItems, hskip, if_true]

/-- Nothing but blanks may stand in front of the closing bracket. -/
lemma exists_of_endItems {s r : List Char} (h : endItems close s = .ok r) :
    ∃ b, Blanks b ∧ s = b ++ close :: r := by
  unfold endItems at h
  split at h
  · cases h
  · rename_i c u hskip
    obtain ⟨-, b, hb, rfl⟩ := skipBlanks_eq_cons_iff.mp hskip
    split at h
    · rename_i hc
      cases h
      exact ⟨b, hb, by rw [hc]⟩
    · cases h

/-- A further item stands behind what separates it from the one before. -/
lemma exists_of_nextItem_more {s r : List Char} (h : nextItem close first s = .ok (.more r)) :
    ∃ p, Separator first p ∧ s = p ++ r := by
  unfold nextItem at h
  split at h
  · cases h
  · rename_i c u hskip
    obtain ⟨-, b, hb, rfl⟩ := skipBlanks_eq_cons_iff.mp hskip
    split at h
    · cases h
    · split at h
      · rename_i hfirst
        cases h
        rw [hfirst]
        exact ⟨b, .blanks hb, rfl⟩
      · rename_i hfirst
        split at h
        · rename_i hcomma
          split at h
          · cases h
          · rename_i d v hskip'
            obtain ⟨-, b', hb', rfl⟩ := skipBlanks_eq_cons_iff.mp hskip'
            split at h
            · cases h
            · cases h
              rw [Bool.not_eq_true] at hfirst
              rw [hfirst, hcomma]
              exact ⟨b ++ ',' :: b', .comma hb hb', by rw [List.append_assoc, List.cons_append]⟩
        · cases h

end NextItem

/-! ### Sequences of strings -/

/-- A string starts an item, since its quote is neither a blank nor a bracket. -/
lemma StringSpelling.startsItem {close : Char} {s : List Char} {v : String}
    (h : StringSpelling s v) (hclose : '"' ≠ close) (r : List Char) :
    StartsItem close (s ++ r) := by
  cases h with
  | quoted h => exact ⟨'"', _, rfl, rfl, hclose⟩

/-- One step of reading the strings of a sequence. -/
lemma readStrings_eq (first : Bool) (s : List Char) :
    readStrings first s =
      match nextItem ']' first s with
      | .error e => .error e
      | .ok (.done r) => .ok ([], r)
      | .ok (.more r) =>
        match readString r with
        | .error e => .error e
        | .ok (v, u) =>
          match readStrings false u with
          | .error e => .error e
          | .ok (vs, rest) => .ok (v :: vs, rest) := by
  rw [readStrings]
  split
  · rename_i hnext
    rw [hnext]
  · rename_i hnext
    rw [hnext]
  · rename_i hnext
    simp only [hnext]
    split
    · rename_i hstring
      simp only [hstring]
    · rename_i hstring
      rewrite [hstring]
      rfl

/-- The strings of a sequence are read off the front of a text. -/
lemma readStrings_append {first : Bool} {s : List Char} {vs : List String}
    (h : Items StringSpelling ']' first s vs) (r : List Char) :
    readStrings first (s ++ r) = .ok (vs, r) := by
  induction h with
  | @close first b hb =>
    have hnext : nextItem ']' first (b ++ ']' :: r) = .ok (.done r) := nextItem_close rfl hb r
    rw [List.append_assoc, List.singleton_append, readStrings_eq, hnext]
  | @item first p t s v vs hp hv h ih =>
    have hstarts : StartsItem ']' (t ++ (s ++ r)) := hv.startsItem (by decide) (s ++ r)
    have hnext := nextItem_item (by decide) hp hstarts
    have hstring : readString (t ++ (s ++ r)) = .ok (v, s ++ r) :=
      readString_append blanks_nil hv (s ++ r)
    rw [List.append_assoc, List.append_assoc, readStrings_eq, hnext]
    simp only [hstring, ih]

/-- Strings that are read are spelled as the items of a group. -/
lemma exists_of_readStrings {first : Bool} {s r : List Char} {vs : List String}
    (h : readStrings first s = .ok (vs, r)) :
    ∃ t, Items StringSpelling ']' first t vs ∧ s = t ++ r := by
  fun_induction readStrings first s generalizing vs r with
  | case1 => cases h
  | case2 first s u hnext =>
    cases h
    obtain ⟨b, hb, rfl⟩ := exists_of_nextItem_done hnext
    exact ⟨b ++ [']'], .close hb, by rw [List.append_assoc, List.singleton_append]⟩
  | case3 => cases h
  | case4 => cases h
  | case5 first s u hnext v w hstring vs' rest hrest ih =>
    cases h
    obtain ⟨p, hp, rfl⟩ := exists_of_nextItem_more hnext
    obtain ⟨b, t, hb, ht, rfl⟩ := exists_of_readString hstring
    obtain ⟨s, hs, rfl⟩ := ih hrest
    refine ⟨p ++ b ++ (t ++ s), .item (hp.append hb) ht hs, ?_⟩
    simp only [List.append_assoc]

/-- A sequence of strings is read off the front of a text, behind blanks. -/
lemma readSequence_append {b s : List Char} {vs : List String} (hb : Blanks b)
    (h : Group StringSpelling '[' ']' s vs) (r : List Char) :
    readSequence (b ++ (s ++ r)) = .ok (vs, r) := by
  cases h with
  | @bracketed s vs h =>
    have hskip : skipBlanks (b ++ ('[' :: s ++ r)) = '[' :: (s ++ r) :=
      skipBlanks_append_cons hb rfl _
    rw [readSequence, hskip]
    exact readStrings_append h r

/-- A sequence that is read is spelled between its brackets, behind blanks. -/
lemma exists_of_readSequence {s r : List Char} {vs : List String}
    (h : readSequence s = .ok (vs, r)) :
    ∃ b t, Blanks b ∧ Group StringSpelling '[' ']' t vs ∧ s = b ++ (t ++ r) := by
  unfold readSequence at h
  split at h
  · cases h
  · rename_i u hskip
    obtain ⟨-, b, hb, rfl⟩ := skipBlanks_eq_cons_iff.mp hskip
    obtain ⟨t, ht, rfl⟩ := exists_of_readStrings h
    exact ⟨b, '[' :: t, hb, .bracketed ht, rfl⟩
  · cases h

end HookLabel.Json
