/-!
Finding, replacing and cutting a given piece of text.
-/
namespace Medley.Text

def cut (piece : List Char) : List Char → Option (List Char × List Char)
  | [] => if piece.isEmpty then some ([], []) else none
  | c :: rest =>
      if piece.isPrefixOf (c :: rest) then some ([], (c :: rest).drop piece.length)
      else (cut piece rest).map fun (before, after) => (c :: before, after)

def contains (piece s : List Char) : Bool := (cut piece s).isSome

def dropStart? (start s : List Char) : Option (List Char) :=
  if start.isPrefixOf s then some (s.drop start.length) else none

/- `skip` characters of an occurrence are still to be passed over. -/
def replaceFrom (piece new : List Char) : Nat → List Char → List Char
  | _, [] => []
  | skip + 1, _ :: rest => replaceFrom piece new skip rest
  | 0, c :: rest =>
      if piece.isPrefixOf (c :: rest) then new ++ replaceFrom piece new (piece.length - 1) rest
      else c :: replaceFrom piece new 0 rest

/-- Every occurrence, from the left and apart, replaced. The empty piece occurs in
front of each character and at the end. -/
def replace (piece new s : List Char) : List Char :=
  if piece.isEmpty then new ++ s.flatMap (fun c => c :: new) else replaceFrom piece new 0 s

def splitOnChar (sep : Char) : List Char → List (List Char)
  | [] => [[]]
  | c :: rest =>
      if c = sep then [] :: splitOnChar sep rest
      else match splitOnChar sep rest with
        | [] => [[c]]
        | part :: parts => (c :: part) :: parts

/- The text before the first `sep`, and the text after it if there is one. -/
def cutChar (sep : Char) : List Char → List Char × Option (List Char)
  | [] => ([], none)
  | c :: rest =>
      if c = sep then ([], some rest)
      else let (before, after) := cutChar sep rest; (c :: before, after)

end Medley.Text
