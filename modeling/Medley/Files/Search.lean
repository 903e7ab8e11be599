import Medley.Files.Tree
import Medley.Text.Glob

/-!
What a pattern selects in a directory. A pattern has a part for each part of a path: two stars for
the directory itself and every directory below it, two dots for the one above, and anything else for
the names that fit it. A pattern that ends with a slash selects directories only.
-/
namespace Medley

inductive PartPattern where
  | below
  | above
  | named (pieces : List Text.Glob.Piece)
  -- nothing after a last slash
  | ending
  deriving DecidableEq, Repr

namespace PartPattern

/-- Two stars make a part by themselves or are refused. -/
def ofPart (part : String) : Except Fault PartPattern :=
  if part = "**" then .ok below
  else if Text.contains ['*', '*'] part.toList then .error .badPattern
  else if part = ".." then .ok above
  else .ok (named (Text.Glob.piecesFrom 0 part.toList))

def ofText (pattern : String) : Except Fault (List PartPattern) := do
  let parts ← (Pathname.ofText pattern).parts.mapM ofPart
  return if pattern.endsWith "/" then parts ++ [ending] else parts

end PartPattern

namespace FileTree

/- The names of the files and directories in a directory. -/
def entries (t : FileTree) (here : List String) : List String :=
  (t.paths.filterMap fun path =>
    if here.isPrefixOf path then (path.drop here.length).head? else none).eraseDups

def folders (t : FileTree) (here : List String) : List (List String) :=
  (t.branches.flatMap fun path =>
    if here.isPrefixOf path then
      (List.range (path.length - here.length + 1)).map (path.drop here.length).take
    else []).eraseDups

def select (t : FileTree) (here : List String) : List PartPattern → List (List String)
  | [] | .ending :: _ => [[]]
  | .below :: rest =>
      (t.folders here).flatMap fun path => (t.select (here ++ path) rest).map (path ++ ·)
  | .above :: rest => (t.select here.dropLast rest).map (".." :: ·)
  | .named pieces :: rest =>
      ((t.entries here).filter fun name =>
        Text.Glob.accepts pieces name.toList &&
          (rest.isEmpty || t.isDirectoryAt (here ++ [name]))).flatMap fun name =>
        (t.select (here ++ [name]) rest).map (name :: ·)

end FileTree
end Medley
