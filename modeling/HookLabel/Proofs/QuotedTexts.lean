import HookLabel.Text.Quoted
import Mathlib.Data.List.Basic
import Mathlib.Tactic.Lemma

/-!
# Quoted texts

A text between quotes consists of characters that can be seen on their own (`Text.isVisible_quote`),
and tells which text it quotes (`Text.quote_injective`): what a character is shown by ends where the
next one starts, because a code point in hexadecimal is closed by a brace and no other character is
shown by a backslash.
-/

namespace HookLabel.Text

/-! ### Hexadecimal digits -/

/-- The digits of a number are hexadecimal digits. -/
lemma exists_digitChar_of_mem_toDigits {n : Nat} {c : Char} (h : c ∈ Nat.toDigits 16 n) :
    ∃ k < 16, c = Nat.digitChar k := by
  induction n using Nat.strongRecOn with
  | ind n ih =>
    rw [Nat.toDigits_eq_if (by decide)] at h
    split at h
    · exact ⟨n, ‹_›, List.mem_singleton.mp h⟩
    · rcases List.mem_append.mp h with h | h
      · exact ih (n / 16) (by omega) h
      · exact ⟨n % 16, Nat.mod_lt _ (by decide), List.mem_singleton.mp h⟩

/-- Hexadecimal digits have different characters. -/
lemma eq_of_digitChar_eq : ∀ k < 16, ∀ l < 16, Nat.digitChar k = Nat.digitChar l → k = l := by
  decide

/-- Numbers have different digits. -/
lemma toDigits_injective {n m : Nat} (h : Nat.toDigits 16 n = Nat.toDigits 16 m) : n = m := by
  induction n using Nat.strongRecOn generalizing m with
  | ind n ih =>
    rw [@Nat.toDigits_eq_if 16 n (by decide), @Nat.toDigits_eq_if 16 m (by decide)] at h
    have hshort : ∀ {k l : Nat} {c : Char},
        [c] ≠ Nat.toDigits 16 k ++ [Nat.digitChar l] := by
      intro k l c heq
      have hlength := congrArg List.length heq
      have hpos : 0 < (Nat.toDigits 16 k).length := Nat.length_toDigits_pos
      rw [List.length_append, List.length_singleton, List.length_singleton] at hlength
      omega
    split at h
    · split at h
      · exact eq_of_digitChar_eq n ‹_› m ‹_› (List.cons.inj h).1
      · exact absurd h hshort
    · split at h
      · exact absurd h.symm hshort
      · obtain ⟨hfront, hlast⟩ := List.append_inj' h rfl
        have hquotient := ih (n / 16) (by omega) hfront
        have hremainder := eq_of_digitChar_eq _ (Nat.mod_lt n (by decide)) _
          (Nat.mod_lt m (by decide)) (List.cons.inj hlast).1
        omega

/-! ### Characters as they are shown -/

/-- A character is shown by a letter behind a backslash, by itself if it can be seen, or by its code
point. -/
lemma showChar_cases (c : Char) :
    (∃ letter, escapeLetter? c = some letter ∧ showChar c = ['\\', letter]) ∨
      escapeLetter? c = none ∧ isVisible c = true ∧ showChar c = [c] ∨
      escapeLetter? c = none ∧ showChar c = codePoint c := by
  unfold showChar
  cases h : escapeLetter? c with
  | some letter => exact .inl ⟨letter, rfl, rfl⟩
  | none =>
    cases hvisible : isVisible c with
    | true => exact .inr (.inl ⟨rfl, rfl, rfl⟩)
    | false => exact .inr (.inr ⟨rfl, rfl⟩)

/-- The letters behind backslashes. -/
lemma escapeLetter?_mem {c letter : Char} (h : escapeLetter? c = some letter) :
    letter ∈ ['0', 't', 'r', 'n', '\\', '"'] := by
  unfold escapeLetter? at h
  split at h <;> cases h <;> decide

/-- Characters that are shown by the same letter are the same. -/
lemma eq_of_escapeLetter? {c d letter : Char} (hc : escapeLetter? c = some letter)
    (hd : escapeLetter? d = some letter) : c = d := by
  unfold escapeLetter? at hc hd
  split at hc <;> cases hc <;> split at hd <;> first | rfl | exact absurd hd (by decide)

/-- A backslash is shown by a letter. -/
lemma ne_backslash_of_escapeLetter? {c : Char} (h : escapeLetter? c = none) : c ≠ '\\' := by
  rintro rfl
  cases h

/-- A code point is closed by a brace, so it ends where the rest of the text starts. -/
lemma codePoint_append_inj {c d : Char} {s t : List Char}
    (h : codePoint c ++ s = codePoint d ++ t) : c = d ∧ s = t := by
  have hdigits : ∀ n r, (Nat.toDigits 16 n ++ '\x7d' :: r).takeWhile (· != '\x7d') =
      Nat.toDigits 16 n := by
    intro n r
    have hne : ∀ e ∈ Nat.toDigits 16 n, (e != '\x7d') = true := by
      intro e he
      obtain ⟨k, -, rfl⟩ := exists_digitChar_of_mem_toDigits he
      exact bne_iff_ne.mpr (Nat.digitChar_ne '\x7d' (by decide))
    rw [List.takeWhile_append_of_pos hne, List.takeWhile_cons_of_neg (by decide), List.append_nil]
  simp only [codePoint, List.append_assoc, List.cons_append, List.nil_append, List.cons.injEq,
    true_and] at h
  have hsame := congrArg (List.takeWhile (· != '\x7d')) h
  rw [hdigits, hdigits] at hsame
  rw [hsame] at h
  obtain ⟨-, hrest⟩ := List.cons.inj (List.append_cancel_left h)
  exact ⟨Char.toNat_inj.mp (toDigits_injective hsame), hrest⟩

/-- What a character is shown by ends where the rest of the text starts. -/
lemma showChar_append_inj {c d : Char} {s t : List Char}
    (h : showChar c ++ s = showChar d ++ t) : c = d ∧ s = t := by
  have hletter : ∀ {e letter : Char}, escapeLetter? e = some letter → letter ≠ 'u' := by
    intro e letter he heq
    have hmem := escapeLetter?_mem he
    rw [heq] at hmem
    exact absurd hmem (by decide)
  rcases showChar_cases c with ⟨l, hl, hc⟩ | ⟨hnone, -, hc⟩ | ⟨hnone, hc⟩ <;>
    rcases showChar_cases d with ⟨l', hl', hd⟩ | ⟨hnone', -, hd⟩ | ⟨hnone', hd⟩ <;>
    rw [hc, hd] at h
  · obtain ⟨rfl, hrest⟩ := List.cons.inj (List.cons.inj h).2
    exact ⟨eq_of_escapeLetter? hl hl', hrest⟩
  · exact absurd (List.cons.inj h).1.symm (ne_backslash_of_escapeLetter? hnone')
  · exact absurd (List.cons.inj (List.cons.inj h).2).1 (hletter hl)
  · exact absurd (List.cons.inj h).1 (ne_backslash_of_escapeLetter? hnone)
  · exact List.cons.inj h
  · exact absurd (List.cons.inj h).1 (ne_backslash_of_escapeLetter? hnone)
  · exact absurd (List.cons.inj (List.cons.inj h).2).1.symm (hletter hl')
  · exact absurd (List.cons.inj h).1.symm (ne_backslash_of_escapeLetter? hnone')
  · exact codePoint_append_inj h

/-! ### Texts between quotes -/

/-- The characters of a text are told by what they are shown by. -/
lemma flatMap_showChar_injective {cs ds : List Char}
    (h : cs.flatMap showChar = ds.flatMap showChar) : cs = ds := by
  have hne : ∀ c, showChar c ≠ [] := by
    intro c
    rcases showChar_cases c with ⟨l, -, hc⟩ | ⟨-, -, hc⟩ | ⟨-, hc⟩ <;> rw [hc]
    · exact List.cons_ne_nil _ _
    · exact List.cons_ne_nil _ _
    · exact List.cons_ne_nil _ _
  induction cs generalizing ds with
  | nil =>
    cases ds with
    | nil => rfl
    | cons d ds => exact absurd (List.append_eq_nil_iff.mp h.symm).1 (hne d)
  | cons c cs ih =>
    cases ds with
    | nil => exact absurd (List.append_eq_nil_iff.mp h).1 (hne c)
    | cons d ds =>
      rw [List.flatMap_cons, List.flatMap_cons] at h
      obtain ⟨rfl, hrest⟩ := showChar_append_inj h
      rw [ih hrest]

/-- A quoted text tells the text. -/
theorem quote_injective : Function.Injective quote := by
  intro s t h
  have hlists := String.ofList_injective h
  have hchars := List.append_cancel_right (List.cons.inj hlists).2
  exact String.toList_injective (flatMap_showChar_injective hchars)

/-- Every character of a quoted text can be seen on its own. -/
theorem isVisible_quote (s : String) : ∀ c ∈ (quote s).toList, isVisible c = true := by
  have hquote : isVisible '"' = true := by decide +kernel
  have hletters : ['0', 't', 'r', 'n', '\\', '"'].all isVisible = true := by decide +kernel
  have hopening : ['\\', 'u', '\x7b'].all isVisible = true := by decide +kernel
  have hclosing : isVisible '\x7d' = true := by decide +kernel
  have hdigits : ∀ k < 16, isVisible (Nat.digitChar k) = true := by decide +kernel
  have hshown : ∀ c, ∀ d ∈ showChar c, isVisible d = true := by
    intro c d hd
    rcases showChar_cases c with ⟨l, hl, hc⟩ | ⟨-, hvisible, hc⟩ | ⟨-, hc⟩ <;> rw [hc] at hd
    · rcases List.mem_cons.mp hd with rfl | hd
      · exact List.all_eq_true.mp hopening _ List.mem_cons_self
      · rw [List.mem_singleton.mp hd]
        exact List.all_eq_true.mp hletters l (escapeLetter?_mem hl)
    · rw [List.mem_singleton.mp hd]
      exact hvisible
    · rw [codePoint, List.mem_append, List.mem_append] at hd
      rcases hd with (hd | hd) | hd
      · exact List.all_eq_true.mp hopening d hd
      · obtain ⟨k, hk, rfl⟩ := exists_digitChar_of_mem_toDigits hd
        exact hdigits k hk
      · rw [List.mem_singleton.mp hd]
        exact hclosing
  intro c hc
  rw [quote, String.toList_ofList, List.cons_append, List.mem_cons, List.mem_append] at hc
  rcases hc with rfl | hc | hc
  · exact hquote
  · obtain ⟨e, -, he⟩ := List.mem_flatMap.mp hc
    exact hshown e c he
  · rw [List.mem_singleton.mp hc]
    exact hquote

end HookLabel.Text
