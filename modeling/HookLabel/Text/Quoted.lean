import HookLabel.Text.Extending
import HookLabel.Text.Printed

/-!
# Quoted text

A text is shown between double quotes. Backslashes, double quotes and the common controls are
escaped by a letter, and whatever could not be seen on its own is shown by its code point: what is
not printed, what extends the character before it, and the letters that have no shape.
-/

namespace HookLabel.Text

/-- The letter that stands for a character after a backslash. -/
def escapeLetter? : Char → Option Char
  | '\x00' => some '0'
  | '\t' => some 't'
  | '\r' => some 'r'
  | '\n' => some 'n'
  | '\\' => some '\\'
  | '"' => some '"'
  | _ => none

/-- A character by its code point, in hexadecimal without leading zeros. -/
def codePoint (c : Char) : List Char :=
  ['\\', 'u', '{'] ++ Nat.toDigits 16 c.toNat ++ ['}']

/-- The letters that fill the place of a missing part of a syllable and have no shape: those that
the property Default_Ignorable_Code_Point covers. -/
def fillerRanges : Ranges := [(0x115f, 0x1160), (0x3164, 0x3164), (0xffa0, 0xffa0)]

/-- The letters among the characters that extend another one: the halfwidth sound marks, which
take a place of their own. -/
def soundMarkRanges : Ranges := [(0xff9e, 0xff9f)]

/-- Whether a character can be seen on its own. -/
def isVisible (c : Char) : Bool :=
  isPrinted c && !fillerRanges.contains c.toNat &&
    (!isExtending c || soundMarkRanges.contains c.toNat)

/-- A character as it is shown between quotes. -/
def showChar (c : Char) : List Char :=
  match escapeLetter? c with
  | some letter => ['\\', letter]
  | none => if isVisible c then [c] else codePoint c

/-- A text between double quotes. -/
def quote (s : String) : String :=
  String.ofList ('"' :: s.toList.flatMap showChar ++ ['"'])

end HookLabel.Text
