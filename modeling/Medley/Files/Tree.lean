import Medley.Encoding.Text
import Medley.Files.Pathname
import Medley.Text.Lines

/-!
A tree of files, seen from the directory where a program works. Directories are those on the way to
a file or to another directory that is there. Paths are followed part by part, from the root or from
where the program works, so two dots leave only a directory that is there; at the root they stay.
-/
namespace Medley

structure FileTree where
  files : List (List String × Encoding.Bytes) := []
  -- directories that are there whatever they hold
  directories : List (List String) := []
  -- where relative paths start
  home : List String := []

namespace FileTree

def branches (t : FileTree) : List (List String) :=
  t.home :: t.directories ++ t.files.map fun f => f.1.dropLast

def paths (t : FileTree) : List (List String) := t.files.map Prod.fst ++ t.branches

/- The files by their paths from the directory `home`. -/
def ofTexts (home : List String) (files : List (String × Encoding.Bytes)) : FileTree where
  files := files.map fun (path, bytes) => (home ++ (Pathname.ofText path).parts, bytes)
  home := home

def get? (t : FileTree) (parts : List String) : Option Encoding.Bytes := t.files.lookup parts

def start (t : FileTree) (p : Pathname) : List String := if p.root.isEmpty then t.home else []

def isDirectoryAt (t : FileTree) (parts : List String) : Bool :=
  t.branches.any parts.isPrefixOf

/- Bytes of a part and of a whole path that the system takes at most. -/
def partLimit : Nat := 255
def pathLimit : Nat := 4096

inductive Place where
  | file (bytes : Encoding.Bytes)
  | directory (parts : List String)

/-- Follows the parts from a directory; none where nothing is there. -/
def walk (t : FileTree) (here : List String) : List String → Except Unit (Option Place)
  | [] => .ok (some (.directory here))
  | ".." :: rest => walk t here.dropLast rest
  | part :: rest =>
      if partLimit < part.utf8ByteSize then .error ()
      else
        let next := here ++ [part]
        if t.isDirectoryAt next then walk t next rest
        else match t.get? next with
          | some bytes => .ok (if rest.isEmpty then some (.file bytes) else none)
          | none => .ok none

def nameTooLong (p : Pathname) : Fault := .operatingSystem 36 "File name too long" p.text

def place? (t : FileTree) (p : Pathname) : Except Fault (Option Place) :=
  if pathLimit ≤ p.text.utf8ByteSize then .error (nameTooLong p)
  else if p.text.contains '\x00' then .ok none
  else match t.walk (t.start p) p.parts with
    | .ok place => .ok place
    | .error () => .error (nameTooLong p)

def file? (t : FileTree) (p : Pathname) : Except Fault (Option Encoding.Bytes) := do
  match ← t.place? p with
  | some (.file bytes) => return some bytes
  | _ => return none

def readText (encoding : String) (bytes : Encoding.Bytes) : Except Fault String := do
  let cs ← (← Encoding.ofName encoding).decode bytes
  return String.ofList (Text.unifyLineEnds cs)

/- A file is written at a path without steps up, and one is taken away; its directory stays. -/
def put (t : FileTree) (path : String) (bytes : Encoding.Bytes) : FileTree :=
  let p := Pathname.ofText path
  let parts := t.start p ++ p.parts
  { t with files := t.files.filter (fun f => f.1 != parts) ++ [(parts, bytes)] }

def erase (t : FileTree) (path : String) : FileTree :=
  let p := Pathname.ofText path
  let parts := t.start p ++ p.parts
  { t with
    files := t.files.filter fun f => f.1 != parts
    directories := parts.dropLast :: t.directories }

end FileTree
end Medley
