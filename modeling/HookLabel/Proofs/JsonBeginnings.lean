import HookLabel.Proofs.JsonGroups

/-!
# Beginnings of texts

What the readers say of a text that stops before its end.  Every spelling is delimited by itself: a
reader that reads a spelling off the front of any text says of each proper beginning of it that the
text has ended, wherever the cut falls, and never that it is ill-formed.

The lemmas follow the grammar from the digits of an escape to sequences of strings.  A beginning of
two texts in a row is a beginning of the first, or the first with a beginning of the second behind
it (`IsBeginning.append`); in the second case the first is read as it is read off any text.
-/

namespace HookLabel.Json

/-! ### Proper beginnings -/

/-- The first text is a beginning of the second and stops before its end. -/
def IsBeginning (p s : List Char) : Prop := p <+: s ∧ p ≠ s

/-- A beginning is empty or starts with the first character of the text. -/
lemma IsBeginning.cons {p s : List Char} {c : Char} (h : IsBeginning p (c :: s)) :
    p = [] ∨ ∃ q, p = c :: q ∧ IsBeginning q s := by
  obtain ⟨hle, hne⟩ := h
  rcases List.prefix_cons_iff.mp hle with rfl | ⟨q, rfl, hq⟩
  · exact .inl rfl
  · exact .inr ⟨q, rfl, hq, fun heq => hne (by rw [heq])⟩

/-- A text of one character has no beginning but the empty one. -/
lemma IsBeginning.eq_nil {p : List Char} {c : Char} (h : IsBeginning p [c]) : p = [] := by
  rcases h.cons with rfl | ⟨q, rfl, hq, hne⟩
  · rfl
  · exact absurd (List.prefix_nil.mp hq) hne

/-- The cut falls into the first of two texts or behind it. -/
lemma IsBeginning.append {p s t : List Char} (h : IsBeginning p (s ++ t)) :
    IsBeginning p s ∨ ∃ q, p = s ++ q ∧ IsBeginning q t := by
  induction s generalizing p with
  | nil => exact .inr ⟨p, rfl, h⟩
  | cons c s ih =>
    rcases IsBeginning.cons h with rfl | ⟨q, rfl, hq⟩
    · exact .inl ⟨List.nil_prefix, (List.cons_ne_nil c s).symm⟩
    · rcases ih hq with hq | ⟨u, rfl, hu⟩
      · refine .inl ⟨List.cons_prefix_cons.mpr ⟨rfl, hq.1⟩, fun heq => hq.2 ?_⟩
        exact (List.cons.inj heq).2
      · exact .inr ⟨u, rfl, hu⟩

/-- The empty text has no beginning. -/
lemma not_isBeginning_nil {p : List Char} : ¬ IsBeginning p [] :=
  fun h => h.2 (List.prefix_nil.mp h.1)

/-- What stands in front in blank text is blank. -/
lemma Blanks.of_prefix {p b : List Char} (hb : Blanks b) (h : p <+: b) : Blanks p :=
  fun c hc => hb c (h.subset hc)

/-- A text that stops early either stops among the blanks in front of a token or shows the first
character of the token. -/
lemma skipBlanks_beginning {b s p : List Char} {c : Char} (hb : Blanks b)
    (hc : isBlank c = false) (hp : IsBeginning p (b ++ c :: s)) :
    skipBlanks p = [] ∨ ∃ q, IsBeginning q s ∧ skipBlanks p = c :: q := by
  rcases hp.append with hp | ⟨u, rfl, hu⟩
  · exact .inl (skipBlanks_eq_nil_iff.mpr (hb.of_prefix hp.1))
  · rcases hu.cons with rfl | ⟨q, rfl, hq⟩
    · rw [List.append_nil]
      exact .inl (skipBlanks_eq_nil_iff.mpr hb)
    · exact .inr ⟨q, hq, skipBlanks_append_cons hb hc q⟩

/-- Nothing is left of a text that ends before its first character that is no blank. -/
lemma skipBlanks_beginning_singleton {b p : List Char} {c : Char} (hb : Blanks b)
    (hc : isBlank c = false) (hp : IsBeginning p (b ++ [c])) : skipBlanks p = [] := by
  rcases skipBlanks_beginning hb hc hp with hskip | ⟨q, hq, -⟩
  · exact hskip
  · exact absurd hq not_isBeginning_nil

/-! ### Strings -/

/-- A hexadecimal digit takes one byte. -/
lemma IsHexDigit.utf8Size {c : Char} {n : Nat} (h : IsHexDigit c n) : c.utf8Size = 1 := by
  have hsizes : (smallDigits ++ capitalDigits).map Char.utf8Size = List.replicate 32 1 := rfl
  have hmem : c ∈ smallDigits ++ capitalDigits := by
    rw [List.mem_append]
    rcases h with h | h
    · exact .inl (List.mem_of_getElem? h)
    · exact .inr (List.mem_of_getElem? h)
  have hsize : c.utf8Size ∈ List.replicate 32 1 := hsizes ▸ List.mem_map_of_mem hmem
  exact List.eq_of_mem_replicate hsize

/-- Fewer than four digits are fewer than four bytes, so the text has ended among them. -/
lemma readUnit_beginning {ds p : List Char} {n : Nat} (h : UnitSpelling ds n)
    (hp : IsBeginning p ds) : readUnit p = .error .endOfInput := by
  cases h with
  | digits ha hb hc hd =>
    rcases hp.cons with rfl | ⟨p, rfl, hp₁⟩
    · rfl
    rcases hp₁.cons with rfl | ⟨p, rfl, hp₂⟩
    · simp [readUnit, utf8Length, ha.utf8Size]
    rcases hp₂.cons with rfl | ⟨p, rfl, hp₃⟩
    · simp [readUnit, utf8Length, ha.utf8Size, hb.utf8Size]
    rw [hp₃.eq_nil]
    simp [readUnit, utf8Length, ha.utf8Size, hb.utf8Size, hc.utf8Size]

/-- The second half of a pair that stops early ends the input. -/
lemma readTrailing_beginning (m : Nat) {es p : List Char} {n : Nat} (h : UnitSpelling es n)
    (hp : IsBeginning p ('\\' :: 'u' :: es)) : readTrailing m p = .error .endOfInput := by
  rcases hp.cons with rfl | ⟨p, rfl, hp₁⟩
  · rfl
  rcases hp₁.cons with rfl | ⟨p, rfl, hp₂⟩
  · rfl
  rw [readTrailing, readUnit_beginning h hp₂]

/-- An escape that stops early, also between the two halves of a pair. -/
lemma readEscape_beginning {t p : List Char} {c : Char} (h : CharSpelling ('\\' :: t) c)
    (hp : IsBeginning p t) : readEscape p = .error .endOfInput := by
  cases h with
  | plain hquote hbackslash hcontrol => exact absurd rfl hbackslash
  | escape hletter =>
    rw [hp.eq_nil]
    rfl
  | unit hds =>
    rcases hp.cons with rfl | ⟨q, rfl, hq⟩
    · rfl
    · rw [readEscape, readNumbered, readUnit_beginning hds hq]
  | @pair ds es m n c hds hes hm hn hc =>
    rcases hp.cons with rfl | ⟨q, rfl, hq⟩
    · rfl
    rw [readEscape, readNumbered]
    rcases hq.append with hq | ⟨u, rfl, hu⟩
    · rw [readUnit_beginning hds hq]
    · have htrailing : isTrailing m = false := by
        rw [← Bool.not_eq_true, isTrailing_iff]
        omega
      have hleading := (isLeading_iff m).mpr hm
      rw [readUnit_append hds]
      simp only [htrailing, hleading, Bool.false_eq_true, if_false, if_true,
        readTrailing_beginning m hes hu]

/-- A spelling of a character that stops early ends the input. -/
lemma readPiece_beginning {s p : List Char} {c : Char} (h : CharSpelling s c)
    (hp : IsBeginning p s) : readPiece p = .error .endOfInput := by
  by_cases hescape : ∃ t, s = '\\' :: t
  · obtain ⟨t, rfl⟩ := hescape
    rcases hp.cons with rfl | ⟨q, rfl, hq⟩
    · rfl
    · rw [readPiece, readEscape_beginning h hq]
  · cases h with
    | plain hquote hbackslash hcontrol =>
      rw [hp.eq_nil]
      rfl
    | _ => exact absurd ⟨_, rfl⟩ hescape

/-- The characters of a string without the closing quote, or not all of them. -/
lemma readChars_beginning {s p cs : List Char} (h : CharsSpelling s cs)
    (hp : IsBeginning p (s ++ ['"'])) : readChars p = .error .endOfInput := by
  induction h generalizing p with
  | nil =>
    rw [hp.eq_nil, readChars_eq]
    rfl
  | @cons t s cs c hc hcs ih =>
    rw [List.append_assoc] at hp
    rcases hp.append with hp | ⟨q, rfl, hq⟩
    · rw [readChars_eq, readPiece_beginning hc hp]
    · rw [readChars_eq, readPiece_append hc q]
      simp only [ih hq]

/-- A string that stops anywhere before its closing quote. -/
lemma readString_beginning {b s p : List Char} {v : String} (hb : Blanks b)
    (h : StringSpelling s v) (hp : IsBeginning p (b ++ s)) :
    readString p = .error .endOfInput := by
  cases h with
  | quoted h =>
    rcases skipBlanks_beginning hb rfl hp with hskip | ⟨q, hq, hskip⟩
    · rw [readString, hskip]
    · rw [readString, hskip]
      simp only [readChars_beginning h hq]

/-! ### Groups -/

section NextItem

variable {close : Char} {first : Bool}

/-- What starts an item starts it also if it stops early. -/
lemma StartsItem.of_prefix {p s : List Char} (h : StartsItem close s) (hp : p <+: s)
    (hne : p ≠ []) : StartsItem close p := by
  obtain ⟨c, r, rfl, hblank, hc⟩ := h
  rcases List.prefix_cons_iff.mp hp with rfl | ⟨q, rfl, -⟩
  · exact absurd rfl hne
  · exact ⟨c, q, rfl, hblank, hc⟩

/-- Blanks with nothing behind them end the input where an item or a bracket is due. -/
lemma nextItem_blanks {b : List Char} (hb : Blanks b) :
    nextItem close first b = .error .endOfInput := by
  rw [nextItem, skipBlanks_eq_nil_iff.mpr hb]

/-- A comma must have an item behind it. -/
lemma nextItem_separator (hclose : ',' ≠ close) {p : List Char} (hp : Separator first p) :
    nextItem close first p = .error .endOfInput := by
  cases hp with
  | blanks hb => exact nextItem_blanks hb
  | @comma b b' hb hb' =>
    have hskip : skipBlanks (b ++ ',' :: b') = ',' :: b' := skipBlanks_append_cons hb rfl b'
    simp only [nextItem, hskip, if_neg hclose, Bool.false_eq_true, if_false, if_true,
      skipBlanks_eq_nil_iff.mpr hb']

/-- What separates items has no beginnings but blanks and separators. -/
lemma Separator.of_isBeginning {p q : List Char} (hp : Separator first p) (hq : IsBeginning q p) :
    Blanks q ∨ Separator first q := by
  cases hp with
  | blanks hb => exact .inl (hb.of_prefix hq.1)
  | comma hb hb' =>
    rcases hq.append with hq | ⟨u, rfl, hu⟩
    · exact .inl (hb.of_prefix hq.1)
    · rcases hu.cons with rfl | ⟨v, rfl, hv⟩
      · rw [List.append_nil]
        exact .inl hb
      · exact .inr (.comma hb (hb'.of_prefix hv.1))

/-- With no closing bracket behind the blanks a group goes on. -/
lemma nextItem_close_beginning (hclose : isBlank close = false) {b p : List Char} (hb : Blanks b)
    (hp : IsBeginning p (b ++ [close])) : nextItem close first p = .error .endOfInput := by
  rw [nextItem, skipBlanks_beginning_singleton hb hclose hp]

/-- A group that stops early stops before its next item, or the beginning of that item is found. -/
lemma nextItem_beginning (hclose : ',' ≠ close) {p s q : List Char} (hp : Separator first p)
    (hs : StartsItem close s) (hq : IsBeginning q (p ++ s)) :
    nextItem close first q = .error .endOfInput ∨
      ∃ u, u ≠ [] ∧ IsBeginning u s ∧ nextItem close first q = .ok (.more u) := by
  rcases hq.append with hq | ⟨u, rfl, hu⟩
  · rcases hp.of_isBeginning hq with hblank | hseparator
    · exact .inl (nextItem_blanks hblank)
    · exact .inl (nextItem_separator hclose hseparator)
  · by_cases hne : u = []
    · rw [hne, List.append_nil]
      exact .inl (nextItem_separator hclose hp)
    · exact .inr ⟨u, hne, hu, nextItem_item hclose hp (hs.of_prefix hu.1 hne)⟩

/-- Blanks with nothing behind them end the input where a bracket is due. -/
lemma endItems_close_beginning (hclose : isBlank close = false) {b p : List Char} (hb : Blanks b)
    (hp : IsBeginning p (b ++ [close])) : endItems close p = .error .endOfInput := by
  rw [endItems, skipBlanks_beginning_singleton hb hclose hp]

end NextItem

/-! ### Sequences of strings -/

/-- The items of a sequence that stop early end the input. -/
lemma readStrings_beginning {first : Bool} {s p : List Char} {vs : List String}
    (h : Items StringSpelling ']' first s vs) (hp : IsBeginning p s) :
    readStrings first p = .error .endOfInput := by
  induction h generalizing p with
  | @close first b hb =>
    have hnext : nextItem ']' first p = .error .endOfInput := nextItem_close_beginning rfl hb hp
    rw [readStrings_eq, hnext]
  | @item first sep t s v vs hsep hv h ih =>
    have hstarts : StartsItem ']' (t ++ s) := hv.startsItem (by decide) s
    rcases nextItem_beginning (by decide) hsep hstarts hp with hnext | ⟨u, -, hu, hnext⟩
    · rw [readStrings_eq, hnext]
    · rw [readStrings_eq, hnext]
      rcases hu.append with hu | ⟨q, rfl, hq⟩
      · simp only [readString_beginning blanks_nil hv hu]
      · have hstring : readString (t ++ q) = .ok (v, q) := readString_append blanks_nil hv q
        simp only [hstring, ih hq]

/-- A sequence that stops anywhere before its closing bracket. -/
lemma readSequence_beginning {b s p : List Char} {vs : List String} (hb : Blanks b)
    (h : Group StringSpelling '[' ']' s vs) (hp : IsBeginning p (b ++ s)) :
    readSequence p = .error .endOfInput := by
  cases h with
  | bracketed h =>
    rcases skipBlanks_beginning hb rfl hp with hskip | ⟨q, hq, hskip⟩
    · rw [readSequence, hskip]
    · rw [readSequence, hskip]
      exact readStrings_beginning h hq

end HookLabel.Json
