import Bulletin.Text.Decimal
import Bulletin.Text.Unprintable

/-!
# Quoted text

How a name is shown inside a message: between double quotes, with everything that would not show,
or would show on its neighbour, written as an escape.

    quote "a\"b\n" = "\"a\\\"b\\n\""
-/

namespace Bulletin.Text

/-- A character inside quotes. -/
def quoteChar (c : Char) : List Char :=
  if c = '\x00' then ['\\', '0']
  else if c = '\t' then ['\\', 't']
  else if c = '\r' then ['\\', 'r']
  else if c = '\n' then ['\\', 'n']
  else if c = '"' then ['\\', '"']
  else if c = '\\' then ['\\', '\\']
  else if isExtender c || isUnprintable c then
    ['\\', 'u', '\x7b'] ++ Decimal.hex c.toNat ++ ['\x7d']
  else [c]

def quote (s : String) : String :=
  String.ofList ('"' :: s.toList.flatMap quoteChar ++ ['"'])

end Bulletin.Text
