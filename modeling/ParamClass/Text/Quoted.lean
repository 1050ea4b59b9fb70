import ParamClass.Text.Visible

/-!
# Quoted texts

A text is shown in a message between double quotes, in such a way that no character of it is
invisible: the double quote and the backslash are escaped, the common control characters have a
letter, and every other character that does not show as itself is written by its code point.
-/

namespace ParamClass.Text

/-- One character of a quoted text. -/
def quoteChar (c : Char) : List Char :=
  if c = '\x00' then ['\\', '0']
  else if c = '\t' then ['\\', 't']
  else if c = '\n' then ['\\', 'n']
  else if c = '\r' then ['\\', 'r']
  else if c = '"' then ['\\', '"']
  else if c = '\\' then ['\\', '\\']
  else if isVisible c then [c]
  else ['\\', 'u', '{'] ++ Nat.toDigits 16 c.toNat ++ ['}']

/-- `s` between double quotes, with every character shown. -/
def quoted (s : String) : String :=
  String.ofList ('"' :: s.toList.flatMap quoteChar ++ ['"'])

end ParamClass.Text
