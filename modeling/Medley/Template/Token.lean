import Medley.Text.Blank
import Medley.Text.Characters
import Medley.Text.Word

/-!
Words of an expression. A word ends at a blank, but a quoted part may hold blanks; a quote
that is never closed takes the rest of the text as one word. Stages of a pipe are separated by
bars outside quotes.
-/
namespace Medley.Token
open Text

def isQuote (c : Char) : Bool := c = '"' || c = '\''

def flush (word : List Char) : List (List Char) := if word.isEmpty then [] else [word.reverse]

/- The readers below pass a text once: `quote` is the mark that is open, `word` and `part` are what
stands before, last character first. -/
def wordsFrom (quote : Option Char) (word : List Char) : List Char → List (List Char)
  | [] => flush word
  | c :: rest => match quote with
    | some q => wordsFrom (if c = q then none else some q) (c :: word) rest
    | none =>
        if isBlank c then flush word ++ wordsFrom none [] rest
        else if isQuote c then
          if rest.contains c then wordsFrom (some c) (c :: word) rest
          else flush word ++ [c :: rest]
        else wordsFrom none (c :: word) rest

def words (s : List Char) : List (List Char) := wordsFrom none [] s

def stagesFrom (quote : Option Char) (part : List Char) : List Char → List (List Char)
  | [] => [part.reverse]
  | c :: rest => match quote with
    | some q => stagesFrom (if c = q then none else some q) (c :: part) rest
    | none =>
        if c = '|' then part.reverse :: stagesFrom none [] rest
        else stagesFrom (if isQuote c then some c else none) (c :: part) rest

def stages (s : List Char) : List (List Char) := stagesFrom none [] s

def inside? : List Char → Option (List Char)
  | [] => none
  | [_] => none
  | c :: rest => if isQuote c && rest.getLast? = some c then some rest.dropLast else none

def isQuoted (s : List Char) : Bool := (inside? s).isSome

def unquote (s : List Char) : List Char := (inside? s).getD s

def startsName (c : Char) : Bool := isAsciiLetter c || c = '_' || c = '$' || c = '@'

def inName (c : Char) : Bool := isWord c || c = '.' || c = '$' || c = '@' || c = '-'

/-- A letter, low line, dollar or at sign, then word characters, dots, dollars, at signs and
dashes. -/
def isName : List Char → Bool
  | [] => false
  | c :: rest => startsName c && rest.all inName

def dropSign : List Char → List Char
  | '-' :: rest => rest
  | s => s

def isDigits (s : List Char) : Bool := !s.isEmpty && s.all isDigit

def isInteger (s : List Char) : Bool := isDigits (dropSign s)

def isDecimal (s : List Char) : Bool :=
  let s := dropSign s
  isDigits (s.takeWhile isDigit) && match s.dropWhile isDigit with
    | '.' :: rest => isDigits rest
    | _ => false

end Medley.Token
