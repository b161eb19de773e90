import HookLabel.Json.Number
import HookLabel.Json.StringLiteral

/-!
# Values in JSON

Values of the kinds that a record is made of: strings and sequences of strings. Where a value is
of another kind than expected, `readFound` finds out what it is instead; a scalar is read to its
end first, so that its own problems are found before its kind is wrong.
-/

namespace HookLabel.Json

/-! ### Blanks -/

/-- Whether a character may stand between any two tokens. -/
def isBlank (c : Char) : Bool := c = ' ' || c = '\t' || c = '\n' || c = '\r'

/-- The text behind the blanks at its start. -/
def skipBlanks (s : List Char) : List Char := s.dropWhile isBlank

/-- Skipping blanks makes no text longer. -/
theorem length_skipBlanks_le (s : List Char) : (skipBlanks s).length ≤ s.length :=
  (List.dropWhile_suffix isBlank).length_le

/-! ### Values of the wrong kind -/

/-- Reads the rest of a word that stands for a value. -/
def readWord (found : Found) : List Char → List Char → Except ReadError Found
  | [], _ => .ok found
  | _ :: _, [] => .error .endOfInput
  | w :: ws, c :: s => if c = w then readWord found ws s else .error .illFormed

/-- Reads a value in order to tell what it is. Of a bracketed value only the bracket is read. -/
def readFound : List Char → Except ReadError Found
  | [] => .error .endOfInput
  | 'n' :: s => readWord .null ['u', 'l', 'l'] s
  | 't' :: s => readWord (.bool true) ['r', 'u', 'e'] s
  | 'f' :: s => readWord (.bool false) ['a', 'l', 's', 'e'] s
  | '-' :: s => readNumber true s
  | '"' :: s =>
    match readChars s with
    | .error e => .error e
    | .ok (cs, _) => .ok (.string (String.ofList cs))
  | '[' :: _ => .ok .sequence
  | '{' :: _ => .ok .map
  | c :: s => if c.isDigit then readNumber false (c :: s) else .error .illFormed

/-- The problem of a value that is not of the expected kind. -/
def mismatch (expected : Expected) (s : List Char) : ReadError :=
  match readFound s with
  | .ok found => .mismatch found expected
  | .error e => e

/-! ### Strings -/

/-- Reads a string. -/
def readString (s : List Char) : Except ReadError (String × List Char) :=
  match skipBlanks s with
  | [] => .error .endOfInput
  | '"' :: r =>
    match readChars r with
    | .error e => .error e
    | .ok (cs, rest) => .ok (String.ofList cs, rest)
  | r => .error (mismatch .string r)

/-- Reading a string consumes some of the text. -/
theorem length_readString {s r : List Char} {t : String} (h : readString s = .ok (t, r)) :
    r.length < s.length := by
  have hs := length_skipBlanks_le s
  unfold readString at h
  split at h
  · cases h
  · rename_i u hu
    rw [hu] at hs
    split at h
    · cases h
    · rename_i hr
      have := length_readChars hr
      cases h
      simp only [List.length_cons] at hs
      omega
  · cases h

/-! ### Items between brackets -/

/-- How a group of items goes on. -/
inductive Next where
  /-- The group has ended; the text behind its bracket is left. -/
  | done (rest : List Char)
  /-- There is another item, at the start of the text that is left. -/
  | more (rest : List Char)
deriving DecidableEq, Repr

/-- Looks for the next item of a group that `close` ends. A comma stands before every item but the
first, and an item must follow a comma. -/
def nextItem (close : Char) (first : Bool) (s : List Char) : Except ReadError Next :=
  match skipBlanks s with
  | [] => .error .endOfInput
  | c :: r =>
    if c = close then .ok (.done r)
    else if first then .ok (.more (c :: r))
    else if c = ',' then
      match skipBlanks r with
      | [] => .error .endOfInput
      | d :: u => if d = close then .error .illFormed else .ok (.more (d :: u))
    else .error .illFormed

/-- Looks for the end of a group that `close` ends and that has no room for another item. -/
def endItems (close : Char) (s : List Char) : Except ReadError (List Char) :=
  match skipBlanks s with
  | [] => .error .endOfInput
  | c :: r => if c = close then .ok r else .error .illFormed

/-- Finding the next item makes no text longer. -/
theorem length_nextItem_more {close : Char} {first : Bool} {s r : List Char}
    (h : nextItem close first s = .ok (.more r)) : r.length ≤ s.length := by
  have hs := length_skipBlanks_le s
  unfold nextItem at h
  split at h
  · cases h
  · rename_i c u hu
    rw [hu] at hs
    split at h
    · cases h
    · split at h
      · cases h
        exact hs
      · split at h
        · have ht := length_skipBlanks_le u
          split at h
          · cases h
          · rename_i d v hv
            rw [hv] at ht
            split at h
            · cases h
            · cases h
              simp only [List.length_cons] at hs ht ⊢
              omega
        · cases h

/-- Reads the strings of a sequence behind its opening bracket. -/
def readStrings (first : Bool) (s : List Char) : Except ReadError (List String × List Char) :=
  match _hn : nextItem ']' first s with
  | .error e => .error e
  | .ok (.done r) => .ok ([], r)
  | .ok (.more r) =>
    match _ht : readString r with
    | .error e => .error e
    | .ok (t, u) =>
      match readStrings false u with
      | .error e => .error e
      | .ok (ts, rest) => .ok (t :: ts, rest)
termination_by s.length
decreasing_by exact Nat.lt_of_lt_of_le (length_readString _ht) (length_nextItem_more _hn)

/-- Finding the end of a group consumes the closing bracket. -/
theorem length_nextItem_done {close : Char} {first : Bool} {s r : List Char}
    (h : nextItem close first s = .ok (.done r)) : r.length < s.length := by
  have hs := length_skipBlanks_le s
  unfold nextItem at h
  split at h
  · cases h
  · rename_i c u hu
    rw [hu] at hs
    simp only [List.length_cons] at hs
    split at h
    · cases h
      omega
    · split at h
      · cases h
      · split at h
        · split at h
          · cases h
          · split at h <;> cases h
        · cases h

/-- Reading the strings of a sequence consumes some of the text. -/
theorem length_readStrings {first : Bool} {s r : List Char} {ts : List String}
    (h : readStrings first s = .ok (ts, r)) : r.length < s.length := by
  fun_induction readStrings first s generalizing ts r with
  | case1 => cases h
  | case2 first s u hn =>
    cases h
    exact length_nextItem_done hn
  | case3 => cases h
  | case4 => cases h
  | case5 first s v hn t u ht ts' rest hrest ih =>
    cases h
    have := length_readString ht
    have := length_nextItem_more hn
    have := ih hrest
    omega

/-- Reads a sequence of strings. -/
def readSequence (s : List Char) : Except ReadError (List String × List Char) :=
  match skipBlanks s with
  | [] => .error .endOfInput
  | '[' :: r => readStrings true r
  | r => .error (mismatch .sequence r)

/-- Reading a sequence consumes some of the text. -/
theorem length_readSequence {s r : List Char} {ts : List String}
    (h : readSequence s = .ok (ts, r)) : r.length < s.length := by
  have hs := length_skipBlanks_le s
  unfold readSequence at h
  split at h
  · cases h
  · rename_i u hu
    rw [hu] at hs
    have := length_readStrings h
    simp only [List.length_cons] at hs
    omega
  · cases h

end HookLabel.Json
