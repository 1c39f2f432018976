import CecRelay.Text.Faint
import CecRelay.Text.Numeral

/-!
# Text in quotes

A text is shown in double quotes so that nothing in it is mistaken: double quotes and the backslash
get a backslash in front, four control characters have a letter, and every faint character is shown by
its number.
-/

namespace CecRelay.Text

/-- The letter of a control character that has one. -/
def escapeLetter? : Char → Option Char
  | '\x00' => some '0'
  | '\t' => some 't'
  | '\n' => some 'n'
  | '\x0d' => some 'r'
  | '\x22' => some '\x22'
  | '\x5c' => some '\x5c'
  | _ => none

/-- A character inside quotes. -/
def shown (c : Char) : String :=
  match escapeLetter? c with
  | some letter => String.ofList ['\x5c', letter]
  | none =>
    if isFaint c then "\\u\x7b" ++ hexText c.toNat ++ "\x7d" else String.ofList [c]

/-- A text in quotes. -/
def quoted (s : String) : String := "\"" ++ String.join (s.toList.map shown) ++ "\""

end CecRelay.Text
