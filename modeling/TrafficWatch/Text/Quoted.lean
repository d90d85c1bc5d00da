import TrafficWatch.Text.Visible

/-!
# Text — Quoted

Texts as they are shown to people who look for faults: between quotes, with everything escaped that
does not show by itself.  Quotes, backslashes and a few control characters have short escapes; other
hidden characters are written by the hexadecimal number of their code point.
-/

namespace TrafficWatch.Text

/-- The hexadecimal digits of a number. -/
def hexadecimal (n : Nat) : List Char :=
  if n < 16 then [Nat.digitChar n] else hexadecimal (n / 16) ++ [Nat.digitChar (n % 16)]
decreasing_by omega

/-- A character as it is shown between quotes. -/
def shown (c : Char) : List Char :=
  if c = '\"' then ['\\', '\"']
  else if c = '\\' then ['\\', '\\']
  else if c = '\n' then ['\\', 'n']
  else if c = '\r' then ['\\', 'r']
  else if c = '\t' then ['\\', 't']
  else if c.toNat = 0 then ['\\', '0']
  else if isVisible c then [c]
  else ['\\', 'u', '\x7b'] ++ hexadecimal c.toNat ++ ['\x7d']

/-- A text between quotes. -/
def quoted (s : List Char) : List Char :=
  '\"' :: s.flatMap shown ++ ['\"']

end TrafficWatch.Text
