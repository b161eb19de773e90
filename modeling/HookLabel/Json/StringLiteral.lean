import HookLabel.Json.Error

/-!
# Strings in JSON

A string is read after its opening quote, one piece at a time: a piece is the closing quote or one
character, which may be spelled by an escape. Each function returns what it has read with the rest
of the text, and the lemmas at the end say that the rest is shorter.
-/

namespace HookLabel.Json

/-! ### Escapes by number -/

/-- The value of a hexadecimal digit. -/
def hexDigit? (c : Char) : Option Nat :=
  if '0' ≤ c ∧ c ≤ '9' then some (c.toNat - '0'.toNat)
  else if 'a' ≤ c ∧ c ≤ 'f' then some (c.toNat - 'a'.toNat + 10)
  else if 'A' ≤ c ∧ c ≤ 'F' then some (c.toNat - 'A'.toNat + 10)
  else none

/-- The number spelled by four hexadecimal digits. -/
def hexUnit? (a b c d : Char) : Option Nat :=
  match hexDigit? a, hexDigit? b, hexDigit? c, hexDigit? d with
  | some a, some b, some c, some d => some (((a * 16 + b) * 16 + c) * 16 + d)
  | _, _, _, _ => none

/-- The length of a text in UTF-8. -/
def utf8Length : List Char → Nat
  | [] => 0
  | c :: s => c.utf8Size + utf8Length s

/-- Reads the four digits of an escape. The text has ended too early if fewer than four bytes are
left, whatever they are. -/
def readUnit : List Char → Except ReadError (Nat × List Char)
  | a :: b :: c :: d :: s =>
    match hexUnit? a b c d with
    | some n => .ok (n, s)
    | none => .error .illFormed
  | s => .error (if utf8Length s < 4 then .endOfInput else .illFormed)

/-- Whether a number is the first half of a pair that spells one character. -/
def isLeading (n : Nat) : Bool := 0xD800 ≤ n && n ≤ 0xDBFF

/-- Whether a number is the second half of a pair that spells one character. -/
def isTrailing (n : Nat) : Bool := 0xDC00 ≤ n && n ≤ 0xDFFF

/-- The character that a pair spells. -/
def pairChar (leading trailing : Nat) : Char :=
  Char.ofNat (0x10000 + (leading - 0xD800) * 0x400 + (trailing - 0xDC00))

/-- Reads the second half of a pair, with the backslash and the letter before it. -/
def readTrailing (leading : Nat) : List Char → Except ReadError (Char × List Char)
  | [] => .error .endOfInput
  | ['\\'] => .error .endOfInput
  | '\\' :: 'u' :: s =>
    match readUnit s with
    | .error e => .error e
    | .ok (n, r) => if isTrailing n then .ok (pairChar leading n, r) else .error .illFormed
  | _ => .error .illFormed

/-- Reads the digits of an escape and, if they are the first half of a pair, the second half. -/
def readNumbered (s : List Char) : Except ReadError (Char × List Char) :=
  match readUnit s with
  | .error e => .error e
  | .ok (n, r) =>
    if isTrailing n then .error .illFormed
    else if isLeading n then readTrailing n r
    else .ok (Char.ofNat n, r)

/-! ### Pieces of a string -/

/-- The character that a letter stands for after a backslash. -/
def escaped? : Char → Option Char
  | '"' => some '"'
  | '\\' => some '\\'
  | '/' => some '/'
  | 'b' => some '\x08'
  | 'f' => some '\x0c'
  | 'n' => some '\n'
  | 'r' => some '\r'
  | 't' => some '\t'
  | _ => none

/-- Reads what follows a backslash. -/
def readEscape : List Char → Except ReadError (Char × List Char)
  | [] => .error .endOfInput
  | 'u' :: s => readNumbered s
  | c :: s =>
    match escaped? c with
    | some x => .ok (x, s)
    | none => .error .illFormed

/-- Whether a character may not stand in a string without an escape. -/
def isControl (c : Char) : Bool := c.toNat < 0x20

/-- Reads one character of a string, or nothing at the closing quote. -/
def readPiece : List Char → Except ReadError (Option Char × List Char)
  | [] => .error .endOfInput
  | '"' :: s => .ok (none, s)
  | '\\' :: s =>
    match readEscape s with
    | .error e => .error e
    | .ok (c, r) => .ok (some c, r)
  | c :: s => if isControl c then .error .illFormed else .ok (some c, s)

/-! ### Reading goes on -/

/-- Reading four digits consumes some of the text. -/
theorem length_readUnit {s r : List Char} {n : Nat} (h : readUnit s = .ok (n, r)) :
    r.length < s.length := by
  unfold readUnit at h
  split at h
  · split at h
    · cases h
      simp only [List.length_cons]
      omega
    · cases h
  · cases h

/-- Reading the second half of a pair consumes some of the text. -/
theorem length_readTrailing {n : Nat} {s r : List Char} {c : Char}
    (h : readTrailing n s = .ok (c, r)) : r.length < s.length := by
  unfold readTrailing at h
  split at h
  · cases h
  · cases h
  · rename_i t
    split at h
    · cases h
    · rename_i m u hu
      have := length_readUnit hu
      split at h
      · simp only [Except.ok.injEq, Prod.mk.injEq] at h
        obtain ⟨-, rfl⟩ := h
        simp only [List.length_cons]
        omega
      · cases h
  · cases h

/-- Reading an escape by number consumes some of the text. -/
theorem length_readNumbered {s r : List Char} {c : Char} (h : readNumbered s = .ok (c, r)) :
    r.length < s.length := by
  unfold readNumbered at h
  split at h
  · cases h
  · rename_i n u hu
    have := length_readUnit hu
    split at h
    · cases h
    · split at h
      · exact Nat.lt_trans (length_readTrailing h) this
      · cases h
        exact this

/-- Reading an escape consumes some of the text. -/
theorem length_readEscape {s r : List Char} {c : Char} (h : readEscape s = .ok (c, r)) :
    r.length < s.length := by
  unfold readEscape at h
  split at h
  · cases h
  · have := length_readNumbered h
    simp only [List.length_cons]
    omega
  · split at h
    · cases h
      simp
    · cases h

/-- Reading one character, or the closing quote, consumes some of the text. -/
theorem length_readPiece {s r : List Char} {c : Option Char} (h : readPiece s = .ok (c, r)) :
    r.length < s.length := by
  unfold readPiece at h
  split at h
  · cases h
  · cases h
    simp
  · split at h
    · cases h
    · rename_i hu
      have := length_readEscape hu
      cases h
      simp only [List.length_cons]
      omega
  · split at h
    · cases h
    · cases h
      simp

/-! ### Whole strings -/

/-- Reads the characters of a string up to its closing quote. -/
def readChars (s : List Char) : Except ReadError (List Char × List Char) :=
  match _h : readPiece s with
  | .error e => .error e
  | .ok (none, r) => .ok ([], r)
  | .ok (some c, r) =>
    match readChars r with
    | .error e => .error e
    | .ok (cs, rest) => .ok (c :: cs, rest)
termination_by s.length
decreasing_by exact length_readPiece _h

/-- Reading the characters of a string consumes some of the text. -/
theorem length_readChars {s r : List Char} {cs : List Char} (h : readChars s = .ok (cs, r)) :
    r.length < s.length := by
  fun_induction readChars s generalizing cs r with
  | case1 => cases h
  | case2 s r' hp =>
    cases h
    exact length_readPiece hp
  | case3 => cases h
  | case4 s c r' hp cs' rest hrest ih =>
    cases h
    exact Nat.lt_trans (ih hrest) (length_readPiece hp)

end HookLabel.Json
