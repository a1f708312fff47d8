import RemoteCalc.Text.Showing

/-!
# Quoted text

Text that a message cites stands between double quotes.  The quote and the
backslash are escaped, the usual control characters have escapes of their own,
and any other character that does not show is written by its code point in hex.
-/

namespace RemoteCalc.Text

/-- An escape by code point, with lower-case hex digits and no leading zeros. -/
def codePointEscape (c : Char) : List Char :=
  ['\\', 'u', '\x7b'] ++ Nat.toDigits 16 c.toNat ++ ['\x7d']

def quotedChar (c : Char) : List Char :=
  if c = '"' then ['\\', '"']
  else if c = '\\' then ['\\', '\\']
  else if c = '\n' then ['\\', 'n']
  else if c = '\r' then ['\\', 'r']
  else if c = '\t' then ['\\', 't']
  else if c = '\x00' then ['\\', '0']
  else if shows c then [c]
  else codePointEscape c

def quoted (text : String) : String :=
  String.ofList ('"' :: text.toList.flatMap quotedChar ++ ['"'])

end RemoteCalc.Text
