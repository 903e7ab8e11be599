/-!
Patterns for names: a star stands for any text, a question mark for any character, and a set in
brackets for one of its characters, or for one it does not have where it begins with an
exclamation mark.
-/
namespace Medley.Text.Glob

inductive Piece where
  | any
  | one
  | char (c : Char)
  | set (negated : Bool) (ranges : List (Char × Char))
  deriving DecidableEq, Repr

/- The members of a set; a dash between two characters makes a range. -/
def ranges : List Char → List (Char × Char)
  | a :: '-' :: b :: rest => (a, b) :: ranges rest
  | c :: rest => (c, c) :: ranges rest
  | [] => []

/-- The text of a set and how many characters it takes with its closing bracket, which does not
come first. -/
def setBody? (s : List Char) : Option (Bool × List Char × Nat) :=
  let negated := s.head? = some '!'
  let s := if negated then s.drop 1 else s
  let mark := if negated then 1 else 0
  match s with
  | [] => none
  | c :: rest =>
      let inside := rest.takeWhile (· ≠ ']')
      if inside.length < rest.length then some (negated, c :: inside, mark + inside.length + 2)
      else none

/- `skip` characters belong to a set already read. -/
def piecesFrom : Nat → List Char → List Piece
  | _, [] => []
  | skip + 1, _ :: rest => piecesFrom skip rest
  | 0, '*' :: rest => .any :: piecesFrom 0 rest
  | 0, '?' :: rest => .one :: piecesFrom 0 rest
  | 0, '[' :: rest => match setBody? rest with
    | some (negated, body, width) => .set negated (ranges body) :: piecesFrom width rest
    | none => .char '[' :: piecesFrom 0 rest
  | 0, c :: rest => .char c :: piecesFrom 0 rest

def Piece.admits (p : Piece) (c : Char) : Bool :=
  match p with
  | any | one => true
  | char d => c = d
  | set negated ranges => ranges.any (fun r => r.1 ≤ c && c ≤ r.2) != negated

def accepts : List Piece → List Char → Bool
  | [], s => s.isEmpty
  | .any :: ps, [] => accepts ps []
  | .any :: ps, c :: rest => accepts ps (c :: rest) || accepts (.any :: ps) rest
  | _ :: _, [] => false
  | p :: ps, c :: rest => p.admits c && accepts ps rest
termination_by ps s => ps.length + s.length

def fits (pattern s : List Char) : Bool := accepts (piecesFrom 0 pattern) s

end Medley.Text.Glob
