import Tariff.Text.Unprintable

/-!
# Quoted texts

A text between double quotes, in which quotes, backslashes and characters without a shape of
their own are escaped; the last by their code point in hexadecimal digits.
-/

namespace Tariff.Text

/-- The characters that stand for `c` between quotes. -/
def escapeQuoted (c : Char) : List Char :=
  if c = '"' then ['\\', '"']
  else if c = '\\' then ['\\', '\\']
  else if c = '\n' then ['\\', 'n']
  else if c = '\r' then ['\\', 'r']
  else if c = '\t' then ['\\', 't']
  else if c.toNat = 0 then ['\\', '0']
  else if isUnprintable c then
    '\\' :: 'u' :: '\x7b' :: (Nat.toDigits 16 c.toNat ++ ['\x7d'])
  else [c]

/-- The text between double quotes. -/
def quote (s : String) : String :=
  String.ofList ('"' :: s.toList.flatMap escapeQuoted ++ ['"'])

example : quote "a\"b" = "\"a\\\"b\"" := by decide +kernel

end Tariff.Text
