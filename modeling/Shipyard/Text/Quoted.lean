import Shipyard.Text.Digits
import Shipyard.Text.Shown

/-!
# Quoted texts in messages

A text between double quotes on one line. Quotes and backslashes are marked by a backslash, the
common controls have a letter, and a character that is not shown stands as its code point in
hexadecimal. An apostrophe stays as it is.
-/

namespace Shipyard.Text

def quoteChar (c : Char) : List Char :=
  if c = '"' then ['\\', '"']
  else if c = '\\' then ['\\', '\\']
  else if c = '\n' then ['\\', 'n']
  else if c = '\r' then ['\\', 'r']
  else if c = '\t' then ['\\', 't']
  else if c = '\x00' then ['\\', '0']
  else if isShown c then [c]
  else ['\\', 'u', '\x7b'] ++ (hex c.toNat).toList ++ ['\x7d']

def quoted (s : String) : String :=
  String.ofList ('"' :: s.toList.flatMap quoteChar ++ ['"'])

end Shipyard.Text
