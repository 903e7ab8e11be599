import Medley.Text.Characters

/-!
White space and what is cut at it. Blank characters are those of the Unicode
property White_Space together with the four separators U+001C to U+001F.
-/
namespace Medley.Text

def blankRanges : Ranges :=
  [(0x9, 0xD), (0x1C, 0x20), (0x85, 0x85), (0xA0, 0xA0), (0x1680, 0x1680), (0x2000, 0x200A),
   (0x2028, 0x2029), (0x202F, 0x202F), (0x205F, 0x205F), (0x3000, 0x3000)]

def isBlank (c : Char) : Bool := blankRanges.contains c.toNat

theorem blankRanges_ascending : blankRanges.ascending = true := by decide
theorem blankRanges_count : blankRanges.count = 29 := by decide

def trimStart (s : List Char) : List Char := s.dropWhile isBlank

def trimEnd (s : List Char) : List Char := (s.reverse.dropWhile isBlank).reverse

def trim (s : List Char) : List Char := trimEnd (trimStart s)

def trimChars (drop : Char → Bool) (s : List Char) : List Char :=
  ((s.dropWhile drop).reverse.dropWhile drop).reverse

/- The non-empty runs between blanks; `run` is the one being read, last character first. -/
def wordsFrom (run : List Char) : List Char → List (List Char)
  | [] => if run.isEmpty then [] else [run.reverse]
  | c :: rest =>
      if isBlank c then
        if run.isEmpty then wordsFrom [] rest else run.reverse :: wordsFrom [] rest
      else wordsFrom (c :: run) rest

def words (s : List Char) : List (List Char) := wordsFrom [] s

/- The text before the first run of blanks and the text after that run, or `none` where there is no
blank. -/
def cutAtBlanks : List Char → Option (List Char × List Char)
  | [] => none
  | c :: rest =>
      if isBlank c then some ([], trimStart rest)
      else (cutAtBlanks rest).map fun (before, after) => (c :: before, after)

end Medley.Text
