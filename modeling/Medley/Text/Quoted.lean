import Medley.Text.Characters
import Medley.Text.Printable

/-!
Text in quotes, as it is shown inside messages and inside other values. Single quotes
stand around it unless it holds a single quote and no double one. Characters that are not
printable are written by their code point.
-/
namespace Medley.Text

def quoteMark (s : List Char) : Char :=
  if s.contains '\'' && !s.contains '"' then '"' else '\''

def quoteChar (mark c : Char) : List Char :=
  if c = mark || c = '\\' then ['\\', c]
  else if c = '\t' then ['\\', 't']
  else if c = '\n' then ['\\', 'n']
  else if c = '\r' then ['\\', 'r']
  else if isPrintable c then [c]
  else if c.toNat < 0x100 then '\\' :: 'x' :: hexFixed false 2 c.toNat
  else if c.toNat < 0x10000 then '\\' :: 'u' :: hexFixed false 4 c.toNat
  else '\\' :: 'U' :: hexFixed false 8 c.toNat

def quoted (s : List Char) : List Char :=
  let mark := quoteMark s
  mark :: s.flatMap (quoteChar mark) ++ [mark]

def quoteByte (mark : Char) (b : UInt8) : List Char :=
  let c := Char.ofNat b.toNat
  if b.toNat < 0x7F then quoteChar mark c else '\\' :: 'x' :: hexFixed false 2 b.toNat

/-- Bytes in quotes: ASCII stands for itself and the rest is written in hexadecimal. -/
def quotedBytes (bytes : List UInt8) : List Char :=
  let mark := quoteMark (bytes.map fun b => Char.ofNat b.toNat)
  'b' :: mark :: bytes.flatMap (quoteByte mark) ++ [mark]

end Medley.Text
