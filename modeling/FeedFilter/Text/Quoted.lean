import FeedFilter.Text.Visible

namespace FeedFilter.Text

-- One character between quotes. A quote and a backslash take a backslash, the common controls
-- their letter, and every other character that would not show its code point in braces.
def quotedChar (c : Char) : List Char :=
  if c = '\x00' then ['\\', '0']
  else if c = '\t' then ['\\', 't']
  else if c = '\r' then ['\\', 'r']
  else if c = '\n' then ['\\', 'n']
  else if c = '"' then ['\\', '"']
  else if c = '\\' then ['\\', '\\']
  else if isVisible c then [c]
  else ['\\', 'u', '{'] ++ Nat.toDigits 16 c.toNat ++ ['}']

-- Text between quotes, in which all that a reader could not see is spelled out.
def quoted (text : String) : String :=
  String.ofList ('"' :: text.toList.flatMap quotedChar ++ ['"'])

example : quoted "a\"b\\\n" = r#""a\"b\\\n""# := by decide +kernel

example : quoted "é\u0301\u200b" = r#""é\u{301}\u{200b}""# := by decide +kernel

end FeedFilter.Text
