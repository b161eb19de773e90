import HookLabel.Json.Value
import Mathlib.Tactic.Lemma

/-!
# The texts of strings

What the reader of strings accepts, stated apart from it.  `Blanks`, `CharSpelling` and
`StringSpelling` say which texts stand between tokens, for a character and for a string, with all
escapes of the format.

A reader returns what it has read together with the rest of the text.  For each reader there is a
lemma that it reads a spelling off the front of any text (`readChars_append`, `readString_append`),
and one that what it has read is spelled in front of the rest (`exists_of_readChars`,
`exists_of_readString`).
-/

namespace HookLabel.Json

/-! ### Spellings -/

/-- Text that may stand between any two tokens. -/
def Blanks (s : List Char) : Prop := ∀ c ∈ s, c ∈ [' ', '\t', '\n', '\r']

/-- The hexadecimal digits in the order of their values, with small letters. -/
def smallDigits : List Char :=
  ['0', '1', '2', '3', '4', '5', '6', '7', '8', '9', 'a', 'b', 'c', 'd', 'e', 'f']

/-- The hexadecimal digits in the order of their values, with capital letters. -/
def capitalDigits : List Char :=
  ['0', '1', '2', '3', '4', '5', '6', '7', '8', '9', 'A', 'B', 'C', 'D', 'E', 'F']

/-- A hexadecimal digit of the given value. -/
def IsHexDigit (c : Char) (n : Nat) : Prop := smallDigits[n]? = some c ∨ capitalDigits[n]? = some c

instance (c : Char) (n : Nat) : Decidable (IsHexDigit c n) :=
  inferInstanceAs (Decidable (_ ∨ _))

/-- The four hexadecimal digits of a number. -/
inductive UnitSpelling : List Char → Nat → Prop where
  | digits {a b c d : Char} {i j k l : Nat} (ha : IsHexDigit a i) (hb : IsHexDigit b j)
      (hc : IsHexDigit c k) (hd : IsHexDigit d l) :
      UnitSpelling [a, b, c, d] (i * 0x1000 + j * 0x100 + k * 0x10 + l)

/-- The letters that may follow a backslash, with the characters that they stand for. -/
def escapes : List (Char × Char) :=
  [('"', '"'), ('\\', '\\'), ('/', '/'), ('b', '\x08'), ('f', '\x0c'), ('n', '\n'), ('r', '\r'),
    ('t', '\t')]

/-- The spellings of a character in a string. -/
inductive CharSpelling : List Char → Char → Prop where
  | plain {c : Char} (hquote : c ≠ '"') (hbackslash : c ≠ '\\') (hcontrol : 0x20 ≤ c.toNat) :
      CharSpelling [c] c
  | escape {letter c : Char} (h : (letter, c) ∈ escapes) : CharSpelling ['\\', letter] c
  | unit {ds : List Char} {c : Char} (h : UnitSpelling ds c.toNat) :
      CharSpelling ('\\' :: 'u' :: ds) c
  | pair {ds es : List Char} {m n : Nat} {c : Char} (hds : UnitSpelling ds m)
      (hes : UnitSpelling es n) (hm : 0xD800 ≤ m ∧ m ≤ 0xDBFF) (hn : 0xDC00 ≤ n ∧ n ≤ 0xDFFF)
      (hc : c.toNat = 0x10000 + (m - 0xD800) * 0x400 + (n - 0xDC00)) :
      CharSpelling ('\\' :: 'u' :: (ds ++ '\\' :: 'u' :: es)) c

/-- Spellings of characters one behind the other. -/
inductive CharsSpelling : List Char → List Char → Prop where
  | nil : CharsSpelling [] []
  | cons {p s cs : List Char} {c : Char} (hc : CharSpelling p c) (hcs : CharsSpelling s cs) :
      CharsSpelling (p ++ s) (c :: cs)

/-- The spellings of a string. -/
inductive StringSpelling : List Char → String → Prop where
  | quoted {s cs : List Char} (h : CharsSpelling s cs) :
      StringSpelling ('"' :: (s ++ ['"'])) (String.ofList cs)

/-- Characters that need no escape are spelled by themselves. -/
lemma charsSpelling_self {s : List Char}
    (h : ∀ c ∈ s, c ≠ '"' ∧ c ≠ '\\' ∧ 0x20 ≤ c.toNat) : CharsSpelling s s := by
  induction s with
  | nil => exact .nil
  | cons c s ih =>
    obtain ⟨hquote, hbackslash, hcontrol⟩ := h c List.mem_cons_self
    have hs : CharsSpelling s s := ih fun d hd => h d (List.mem_cons_of_mem c hd)
    exact .cons (.plain hquote hbackslash hcontrol) hs

/-! ### Blanks -/

/-- The reader takes the same characters for blanks. -/
lemma isBlank_iff (c : Char) : isBlank c = true ↔ c ∈ [' ', '\t', '\n', '\r'] := by
  simp [isBlank, or_assoc]

/-- There need be no blanks. -/
lemma blanks_nil : Blanks [] := nofun

/-- Blanks behind blanks are blanks. -/
lemma Blanks.append {b b' : List Char} (h : Blanks b) (h' : Blanks b') : Blanks (b ++ b') := by
  intro c hc
  rcases List.mem_append.mp hc with hc | hc
  · exact h c hc
  · exact h' c hc

/-- Blanks in front are skipped. -/
lemma skipBlanks_append {b : List Char} (h : Blanks b) (s : List Char) :
    skipBlanks (b ++ s) = skipBlanks s :=
  List.dropWhile_append_of_pos fun c hc => (isBlank_iff c).mpr (h c hc)

/-- Skipping stops at the first character that is no blank. -/
lemma skipBlanks_cons {c : Char} (h : isBlank c = false) (s : List Char) :
    skipBlanks (c :: s) = c :: s :=
  List.dropWhile_cons_of_neg (by rw [h]; exact Bool.false_ne_true)

/-- All blanks in front of a character that is none are skipped, and no more. -/
lemma skipBlanks_append_cons {b : List Char} (hb : Blanks b) {c : Char} (hc : isBlank c = false)
    (s : List Char) : skipBlanks (b ++ c :: s) = c :: s := by
  rw [skipBlanks_append hb, skipBlanks_cons hc]

/-- What is skipped is blank. -/
lemma exists_blanks (s : List Char) : ∃ b, Blanks b ∧ s = b ++ skipBlanks s := by
  refine ⟨s.takeWhile isBlank, fun c hc => ?_, List.takeWhile_append_dropWhile.symm⟩
  exact (isBlank_iff c).mp (List.all_eq_true.mp List.all_takeWhile c hc)

/-- Nothing is left exactly if the text is blank. -/
lemma skipBlanks_eq_nil_iff {s : List Char} : skipBlanks s = [] ↔ Blanks s := by
  constructor
  · intro h
    obtain ⟨b, hb, hs⟩ := exists_blanks s
    rw [h, List.append_nil] at hs
    rwa [hs]
  · intro h
    have hskip := skipBlanks_append h []
    rwa [List.append_nil] at hskip

/-- What is left starts with the first character that is no blank. -/
lemma skipBlanks_eq_cons_iff {s r : List Char} {c : Char} :
    skipBlanks s = c :: r ↔ isBlank c = false ∧ ∃ b, Blanks b ∧ s = b ++ c :: r := by
  constructor
  · intro h
    have hc : isBlank c = false := by
      have hhead := List.head?_dropWhile_not isBlank s
      rw [← skipBlanks, h] at hhead
      exact hhead
    obtain ⟨b, hb, hs⟩ := exists_blanks s
    rw [h] at hs
    exact ⟨hc, b, hb, hs⟩
  · rintro ⟨hc, b, hb, rfl⟩
    exact skipBlanks_append_cons hb hc r

/-! ### Escapes by number -/

/-- A digit has its place among the digits, small or capital, as its value. -/
lemma hexDigit?_eq_some_iff {c : Char} {n : Nat} : hexDigit? c = some n ↔ IsHexDigit c n := by
  constructor
  · intro h
    have hsmall : c.toNat < 128 := by
      have ha : 'f'.toNat = 102 := rfl
      have hA : 'F'.toNat = 70 := rfl
      have h9 : '9'.toNat = 57 := rfl
      simp only [hexDigit?, Char.le_def, UInt32.le_iff_toNat_le, Char.toNat_val] at h
      split at h
      · omega
      · split at h
        · omega
        · split at h
          · omega
          · cases h
    have hall : ∀ i < 128, ((hexDigit? (Char.ofNat i)).all fun m =>
        decide (IsHexDigit (Char.ofNat i) m)) = true := by
      decide
    have hc := hall c.toNat hsmall
    rw [Char.ofNat_toNat, h] at hc
    exact of_decide_eq_true hc
  · have hsmall : ∀ i : Fin smallDigits.length, hexDigit? (smallDigits.get i) = some i.val := by
      decide
    have hcapital : ∀ i : Fin capitalDigits.length,
        hexDigit? (capitalDigits.get i) = some i.val := by
      decide
    rintro (h | h)
    · obtain ⟨hn, rfl⟩ := List.getElem?_eq_some_iff.mp h
      exact hsmall ⟨n, hn⟩
    · obtain ⟨hn, rfl⟩ := List.getElem?_eq_some_iff.mp h
      exact hcapital ⟨n, hn⟩

/-- A digit is below the base. -/
lemma IsHexDigit.lt {c : Char} {n : Nat} (h : IsHexDigit c n) : n < 16 := by
  rcases h with h | h <;> exact (List.getElem?_eq_some_iff.mp h).1

/-- Four digits spell a number of sixteen bits. -/
lemma UnitSpelling.lt {ds : List Char} {n : Nat} (h : UnitSpelling ds n) : n < 0x10000 := by
  cases h with
  | digits ha hb hc hd =>
    have := ha.lt
    have := hb.lt
    have := hc.lt
    have := hd.lt
    omega

/-- Four characters have a value exactly if they are the digits of it. -/
lemma hexUnit?_eq_some_iff {a b c d : Char} {n : Nat} :
    hexUnit? a b c d = some n ↔ UnitSpelling [a, b, c, d] n := by
  have hvalue : ∀ i j k l : Nat,
      ((i * 16 + j) * 16 + k) * 16 + l = i * 0x1000 + j * 0x100 + k * 0x10 + l := by
    omega
  constructor
  · intro h
    unfold hexUnit? at h
    split at h
    · rename_i i j k l ha hb hc hd
      rw [hexDigit?_eq_some_iff] at ha hb hc hd
      rw [← Option.some.inj h, hvalue]
      exact .digits ha hb hc hd
    · cases h
  · rintro ⟨ha, hb, hc, hd⟩
    rw [← hexDigit?_eq_some_iff] at ha hb hc hd
    rw [hexUnit?, ha, hb, hc, hd]
    exact congrArg some (hvalue ..)

/-- The digits of a number are read off the front of a text. -/
lemma readUnit_append {ds : List Char} {n : Nat} (h : UnitSpelling ds n) (r : List Char) :
    readUnit (ds ++ r) = .ok (n, r) := by
  cases h with
  | digits ha hb hc hd =>
    have hunit := hexUnit?_eq_some_iff.mpr (.digits ha hb hc hd)
    simp only [List.cons_append, List.nil_append, readUnit, hunit]

/-- What is read as a number is spelled by the four characters in front. -/
lemma exists_of_readUnit {s r : List Char} {n : Nat} (h : readUnit s = .ok (n, r)) :
    ∃ ds, UnitSpelling ds n ∧ s = ds ++ r := by
  unfold readUnit at h
  split at h
  · rename_i a b c d t
    split at h
    · rename_i m hunit
      cases h
      exact ⟨_, hexUnit?_eq_some_iff.mp hunit, rfl⟩
    · cases h
  · cases h

/-- The first halves of surrogate pairs. -/
lemma isLeading_iff (n : Nat) : isLeading n = true ↔ 0xD800 ≤ n ∧ n ≤ 0xDBFF := by
  simp [isLeading]

/-- The second halves of surrogate pairs. -/
lemma isTrailing_iff (n : Nat) : isTrailing n = true ↔ 0xDC00 ≤ n ∧ n ≤ 0xDFFF := by
  simp [isTrailing]

/-- A code point that is valid is the one of its character. -/
lemma toNat_ofNat {n : Nat} (h : n.isValidChar) : (Char.ofNat n).toNat = n := by
  rw [Char.ofNat, dif_pos h]
  rfl

/-- A surrogate pair stands for the code point that its halves make up, which is always valid. -/
lemma toNat_pairChar {m n : Nat} (hm : 0xD800 ≤ m ∧ m ≤ 0xDBFF) (hn : 0xDC00 ≤ n ∧ n ≤ 0xDFFF) :
    (pairChar m n).toNat = 0x10000 + (m - 0xD800) * 0x400 + (n - 0xDC00) := by
  refine toNat_ofNat (.inr ?_)
  omega

/-- The second half of a pair is read off the front of any text. -/
lemma readTrailing_append (m : Nat) {es : List Char} {n : Nat} (h : UnitSpelling es n)
    (hn : 0xDC00 ≤ n ∧ n ≤ 0xDFFF) (r : List Char) :
    readTrailing m ('\\' :: 'u' :: (es ++ r)) = .ok (pairChar m n, r) := by
  have htrailing := (isTrailing_iff n).mpr hn
  simp only [readTrailing, readUnit_append h, htrailing, if_true]

/-- Whatever completes a pair is an escape of a second half. -/
lemma exists_of_readTrailing {s r : List Char} {m : Nat} {c : Char}
    (h : readTrailing m s = .ok (c, r)) :
    ∃ es n, UnitSpelling es n ∧ (0xDC00 ≤ n ∧ n ≤ 0xDFFF) ∧ pairChar m n = c ∧
      s = '\\' :: 'u' :: (es ++ r) := by
  unfold readTrailing at h
  split at h
  · cases h
  · cases h
  · split at h
    · cases h
    · rename_i n u hunit
      split at h
      · rename_i htrailing
        simp only [Except.ok.injEq, Prod.mk.injEq] at h
        obtain ⟨hc, rfl⟩ := h
        obtain ⟨es, hes, rfl⟩ := exists_of_readUnit hunit
        exact ⟨es, n, hes, (isTrailing_iff n).mp htrailing, hc, rfl⟩
      · cases h
  · cases h

/-! ### Characters -/

/-- The letters behind a backslash are those of the table. -/
lemma escaped?_eq_some_iff {letter c : Char} :
    escaped? letter = some c ↔ (letter, c) ∈ escapes := by
  constructor
  · intro h
    unfold escaped? at h
    split at h <;> cases h <;> decide
  · intro h
    simp only [escapes, List.mem_cons, Prod.mk.injEq, List.not_mem_nil, or_false] at h
    rcases h with ⟨rfl, rfl⟩ | ⟨rfl, rfl⟩ | ⟨rfl, rfl⟩ | ⟨rfl, rfl⟩ | ⟨rfl, rfl⟩ | ⟨rfl, rfl⟩ |
      ⟨rfl, rfl⟩ | ⟨rfl, rfl⟩ <;> rfl

/-- An escape is read off the front of a text. -/
lemma readEscape_append {p : List Char} {c : Char} (h : CharSpelling ('\\' :: p) c)
    (r : List Char) : readEscape (p ++ r) = .ok (c, r) := by
  cases h with
  | plain hquote hbackslash hcontrol => exact absurd rfl hbackslash
  | @escape letter c h =>
    have hletter := escaped?_eq_some_iff.mpr h
    have hunit : letter ≠ 'u' := by
      rintro rfl
      cases hletter
    rw [List.cons_append, List.nil_append, readEscape]
    · rw [hletter]
    · exact hunit
  | @unit ds c h =>
    have hvalid : c.toNat.isValidChar := c.valid
    have htrailing : isTrailing c.toNat = false := by
      rw [← Bool.not_eq_true, isTrailing_iff]
      rcases hvalid with hvalid | hvalid <;> omega
    have hleading : isLeading c.toNat = false := by
      rw [← Bool.not_eq_true, isLeading_iff]
      rcases hvalid with hvalid | hvalid <;> omega
    rw [List.cons_append, readEscape, readNumbered, readUnit_append h]
    simp only [htrailing, hleading, Bool.false_eq_true, if_false, Char.ofNat_toNat]
  | @pair ds es m n c hds hes hm hn hc =>
    have htrailing : isTrailing m = false := by
      rw [← Bool.not_eq_true, isTrailing_iff]
      omega
    have hleading := (isLeading_iff m).mpr hm
    have hpair : pairChar m n = c := Char.toNat_inj.mp ((toNat_pairChar hm hn).trans hc.symm)
    have hsplit : ds ++ '\\' :: 'u' :: es ++ r = ds ++ '\\' :: 'u' :: (es ++ r) := by
      rw [List.append_assoc]
      rfl
    rw [List.cons_append, hsplit, readEscape, readNumbered, readUnit_append hds]
    simp only [htrailing, hleading, Bool.false_eq_true, if_false, if_true,
      readTrailing_append m hes hn, hpair]

/-- What an escape by number is read as, it spells. -/
lemma exists_of_readNumbered {s r : List Char} {c : Char} (h : readNumbered s = .ok (c, r)) :
    ∃ p, CharSpelling ('\\' :: 'u' :: p) c ∧ s = p ++ r := by
  unfold readNumbered at h
  split at h
  · cases h
  · rename_i n u hunit
    obtain ⟨ds, hds, rfl⟩ := exists_of_readUnit hunit
    split at h
    · cases h
    · rename_i htrailing
      rw [isTrailing_iff] at htrailing
      split at h
      · rename_i hleading
        rw [isLeading_iff] at hleading
        obtain ⟨es, m, hes, hm, rfl, rfl⟩ := exists_of_readTrailing h
        refine ⟨ds ++ '\\' :: 'u' :: es, .pair hds hes hleading hm ?_, ?_⟩
        · exact toNat_pairChar hleading hm
        · rw [List.append_assoc]
          rfl
      · rename_i hleading
        rw [isLeading_iff] at hleading
        cases h
        have hlt := hds.lt
        have hvalid : n.isValidChar := by
          unfold Nat.isValidChar
          omega
        exact ⟨ds, .unit (by rwa [toNat_ofNat hvalid]), rfl⟩

/-- What an escape is read as, it spells. -/
lemma exists_of_readEscape {s r : List Char} {c : Char} (h : readEscape s = .ok (c, r)) :
    ∃ p, CharSpelling ('\\' :: p) c ∧ s = p ++ r := by
  unfold readEscape at h
  split at h
  · cases h
  · obtain ⟨p, hp, rfl⟩ := exists_of_readNumbered h
    exact ⟨'u' :: p, hp, rfl⟩
  · rename_i letter t _
    split at h
    · rename_i x hletter
      cases h
      exact ⟨[letter], .escape (escaped?_eq_some_iff.mp hletter), rfl⟩
    · cases h

/-- A character may stand in a string by itself from the space on. -/
lemma isControl_eq_false_iff (c : Char) : isControl c = false ↔ 0x20 ≤ c.toNat := by
  simp [isControl]

/-- A character is read off the front of a text. -/
lemma readPiece_append {p : List Char} {c : Char} (h : CharSpelling p c) (r : List Char) :
    readPiece (p ++ r) = .ok (some c, r) := by
  by_cases hescape : ∃ t, p = '\\' :: t
  · obtain ⟨t, rfl⟩ := hescape
    simp only [List.cons_append, readPiece, readEscape_append h]
  · cases h with
    | plain hquote hbackslash hcontrol =>
      have hplain := (isControl_eq_false_iff c).mpr hcontrol
      rw [List.cons_append, List.nil_append, readPiece]
      · rw [hplain]
        rfl
      · exact hquote
      · exact hbackslash
    | _ => exact absurd ⟨_, rfl⟩ hescape

/-- What is read as one character of a string spells it. -/
lemma exists_of_readPiece {s r : List Char} {c : Char} (h : readPiece s = .ok (some c, r)) :
    ∃ p, CharSpelling p c ∧ s = p ++ r := by
  unfold readPiece at h
  split at h
  · cases h
  · cases h
  · split at h
    · cases h
    · rename_i hread
      cases h
      obtain ⟨p, hp, rfl⟩ := exists_of_readEscape hread
      exact ⟨'\\' :: p, hp, rfl⟩
  · rename_i d t hquote hbackslash
    split at h
    · cases h
    · rename_i hplain
      cases h
      rw [Bool.not_eq_true, isControl_eq_false_iff] at hplain
      exact ⟨[c], .plain hquote hbackslash hplain, rfl⟩

/-- A string ends at its first quote. -/
lemma readPiece_eq_none_iff {s r : List Char} : readPiece s = .ok (none, r) ↔ s = '"' :: r := by
  constructor
  · intro h
    unfold readPiece at h
    split at h
    · cases h
    · cases h
      rfl
    · split at h <;> cases h
    · split at h <;> cases h
  · rintro rfl
    rfl

/-! ### Strings -/

/-- One step of reading the characters of a string. -/
lemma readChars_eq (s : List Char) :
    readChars s =
      match readPiece s with
      | .error e => .error e
      | .ok (none, r) => .ok ([], r)
      | .ok (some c, r) =>
        match readChars r with
        | .error e => .error e
        | .ok (cs, rest) => .ok (c :: cs, rest) := by
  rw [readChars]
  split
  · rename_i h
    rw [h]
  · rename_i h
    rw [h]
  · rename_i h
    rewrite [h]
    rfl

/-- Characters up to a quote are read off the front of a text. -/
lemma readChars_append {s cs : List Char} (h : CharsSpelling s cs) (r : List Char) :
    readChars (s ++ '"' :: r) = .ok (cs, r) := by
  induction h with
  | nil =>
    have hpiece : readPiece ('"' :: r) = .ok (none, r) := rfl
    rw [List.nil_append, readChars_eq, hpiece]
  | @cons p s cs c hc hcs ih =>
    have hpiece := readPiece_append hc (s ++ '"' :: r)
    rw [List.append_assoc, readChars_eq, hpiece]
    simp only [ih]

/-- Characters that are read are spelled in front of a quote. -/
lemma exists_of_readChars {s r cs : List Char} (h : readChars s = .ok (cs, r)) :
    ∃ t, CharsSpelling t cs ∧ s = t ++ '"' :: r := by
  fun_induction readChars s generalizing cs r with
  | case1 => cases h
  | case2 s r' hpiece =>
    cases h
    exact ⟨[], .nil, readPiece_eq_none_iff.mp hpiece⟩
  | case3 => cases h
  | case4 s c r' hpiece cs' rest hrest ih =>
    cases h
    obtain ⟨p, hp, rfl⟩ := exists_of_readPiece hpiece
    obtain ⟨t, ht, rfl⟩ := ih hrest
    exact ⟨p ++ t, .cons hp ht, (List.append_assoc ..).symm⟩

/-- A string is read off the front of a text, behind blanks. -/
lemma readString_append {b s : List Char} {v : String} (hb : Blanks b) (h : StringSpelling s v)
    (r : List Char) : readString (b ++ (s ++ r)) = .ok (v, r) := by
  cases h with
  | @quoted s cs h =>
    have htext : '"' :: (s ++ ['"']) ++ r = '"' :: (s ++ '"' :: r) := by
      rw [List.cons_append, List.append_assoc, List.singleton_append]
    have hskip : skipBlanks (b ++ '"' :: (s ++ '"' :: r)) = '"' :: (s ++ '"' :: r) :=
      skipBlanks_append_cons hb rfl _
    rw [htext, readString, hskip]
    simp only [readChars_append h]

/-- A string that is read is spelled behind blanks. -/
lemma exists_of_readString {s r : List Char} {v : String} (h : readString s = .ok (v, r)) :
    ∃ b t, Blanks b ∧ StringSpelling t v ∧ s = b ++ (t ++ r) := by
  unfold readString at h
  split at h
  · cases h
  · rename_i u hskip
    obtain ⟨-, b, hb, rfl⟩ := skipBlanks_eq_cons_iff.mp hskip
    split at h
    · cases h
    · rename_i hchars
      cases h
      obtain ⟨t, ht, rfl⟩ := exists_of_readChars hchars
      refine ⟨b, _, hb, .quoted ht, ?_⟩
      simp only [List.append_assoc, List.cons_append, List.nil_append]
  · cases h

end HookLabel.Json
