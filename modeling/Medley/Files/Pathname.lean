import Medley.Fault
import Medley.Text.Search
import Medley.Value.Written

/-!
Path names as they are written: a root, which is empty for a relative path, and the parts after
it. A single dot and an empty part mean nothing; two dots stand.
-/
namespace Medley

structure Pathname where
  root : String
  parts : List String
  deriving DecidableEq, Repr

namespace Pathname

def rootOf : List Char → String
  | '/' :: '/' :: '/' :: _ => "/"
  | '/' :: '/' :: _ => "//"
  | '/' :: _ => "/"
  | _ => ""

def ofText (s : String) : Pathname :=
  ⟨rootOf s.toList, ((Text.splitOnChar '/' s.toList).map String.ofList).filter fun part =>
    part != "" && part != "."⟩

def text (p : Pathname) : String :=
  if p.root.isEmpty && p.parts.isEmpty then "." else p.root ++ String.intercalate "/" p.parts

/- A path from another one; a path with a root stands alone. -/
def join (p q : Pathname) : Pathname :=
  if q.root.isEmpty then ⟨p.root, p.parts ++ q.parts⟩ else q

def name (p : Pathname) : String := p.parts.getLast?.getD ""

/-- Where a name is cut before its suffix; a dot at either end begins none. -/
def suffixPlace? (name : List Char) : Option Nat :=
  let after := (name.reverse.takeWhile (· ≠ '.')).length
  let place := name.length - after - 1
  if after < name.length && 0 < place && 0 < after then some place else none

def suffix (p : Pathname) : String :=
  match suffixPlace? p.name.toList with
  | some place => String.ofList (p.name.toList.drop place)
  | none => ""

def stem (p : Pathname) : String :=
  match suffixPlace? p.name.toList with
  | some place => String.ofList (p.name.toList.take place)
  | none => p.name

def shownPath (p : Pathname) : String := shownText p.text

def withName (p : Pathname) (name : String) : Except Fault Pathname :=
  if p.name.isEmpty then .error (.emptyPathName p.shownPath)
  else
    let q := ofText name
    if q.root.isEmpty && q.parts.length = 1 && !name.endsWith "/" then
      .ok ⟨p.root, p.parts.dropLast ++ q.parts⟩
    else .error (.badPathName (shownText name))

end Pathname
end Medley
