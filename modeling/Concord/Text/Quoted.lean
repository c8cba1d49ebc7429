import Concord.Text.Unprintable

/-!
# Quoted text

Text between double quotes, written so that every character of it can be seen: quotes and
backslashes carry a backslash, the four common controls have a letter, and any other character
without a printed form is given by its code point in lower-case hexadecimal.
-/

namespace Concord.Text

/-- Lower-case hexadecimal digits without leading zeros. -/
def hexadecimal (n : Nat) : List Char := Nat.toDigits 16 n

/-- How one character stands between the quotes. -/
def escapeChar (c : Char) : List Char :=
  match c with
  | '\x00' => ['\\', '0']
  | '\t' => ['\\', 't']
  | '\r' => ['\\', 'r']
  | '\n' => ['\\', 'n']
  | '"' => ['\\', '"']
  | '\\' => ['\\', '\\']
  | c =>
    if isUnprintable c.toNat then ['\\', 'u', '\x7b'] ++ hexadecimal c.toNat ++ ['\x7d']
    else [c]

/-- The text between double quotes, with its characters escaped where needed. A single quote is
not escaped. -/
def quote (s : String) : String :=
  String.ofList ('"' :: s.toList.flatMap escapeChar ++ ['"'])

end Concord.Text
