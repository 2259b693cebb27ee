import Scribe.Text.Hex
import Scribe.Text.Printable

/-!
# Quoted text in messages

A text that a message mentions stands between single quotes, or between double quotes when it
holds a single quote and no double one. Backslashes, the quote itself and characters that do not
print are escaped.
-/
namespace Scribe.Text

def quoteFor (cs : List Char) : Char :=
  if cs.contains '\'' && !cs.contains '"' then '"' else '\''

def escapeIn (mark c : Char) : List Char :=
  if c == mark || c == '\\' then ['\\', c]
  else if c == '\n' then ['\\', 'n']
  else if c == '\r' then ['\\', 'r']
  else if c == '\t' then ['\\', 't']
  else if isPrintable c then [c]
  else if c.toNat < 0x100 then '\\' :: 'x' :: hex 2 c.toNat
  else if c.toNat < 0x10000 then '\\' :: 'u' :: hex 4 c.toNat
  else '\\' :: 'U' :: hex 8 c.toNat

def quotedChars (cs : List Char) : List Char :=
  let mark := quoteFor cs
  mark :: cs.flatMap (escapeIn mark) ++ [mark]

def quoted (s : String) : String :=
  String.ofList (quotedChars s.toList)

end Scribe.Text
