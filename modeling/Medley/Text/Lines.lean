import Medley.Text.Blank

/-!
Lines. A line ends at a line feed, carriage return (the two together end one line),
vertical tab, form feed, one of the separators U+001C to U+001E, next line, line
separator or paragraph separator. The last line needs no ending.
-/
namespace Medley.Text

def lineBreaks : Ranges := [(0xA, 0xD), (0x1C, 0x1E), (0x85, 0x85), (0x2028, 0x2029)]

def endsLine (c : Char) : Bool := lineBreaks.contains c.toNat

/- `line` is the line being read, last character first. -/
def linesFrom (line : List Char) : List Char → List (List Char)
  | [] => if line.isEmpty then [] else [line.reverse]
  | '\r' :: '\n' :: rest => line.reverse :: linesFrom [] rest
  | c :: rest =>
      if endsLine c then line.reverse :: linesFrom [] rest else linesFrom (c :: line) rest

def lines (s : List Char) : List (List Char) := linesFrom [] s

/-- A carriage return, alone or before a line feed, becomes a line feed. -/
def unifyLineEnds : List Char → List Char
  | [] => []
  | '\r' :: '\n' :: rest => '\n' :: unifyLineEnds rest
  | c :: rest => (if c = '\r' then '\n' else c) :: unifyLineEnds rest

end Medley.Text
