import Medley.Files.Search
import Medley.Template.Kind
import Medley.Text.Closeness

/-!
Where sources of templates come from: texts in memory, files in a directory for each kind, or
a store of the host program with keys of its own.
-/
namespace Medley

structure Shelves where
  pages : List (String × String) := []
  embeds : List (String × String) := []
  components : List (String × String) := []
  layouts : List (String × String) := []
  deriving DecidableEq, Repr

namespace Shelves

def ofKind (s : Shelves) : Kind → List (String × String)
  | .page => s.pages
  | .embed => s.embeds
  | .component => s.components
  | .layout => s.layouts

def modify (s : Shelves) (kind : Kind) (f : List (String × String) → List (String × String)) :
    Shelves :=
  match kind with
  | .page => { s with pages := f s.pages }
  | .embed => { s with embeds := f s.embeds }
  | .component => { s with components := f s.components }
  | .layout => { s with layouts := f s.layouts }

def put (s : Shelves) (kind : Kind) (name source : String) : Shelves :=
  s.modify kind fun entries => setProp entries name source

def erase (s : Shelves) (kind : Kind) (name : String) : Shelves :=
  s.modify kind fun entries => entries.filter fun e => e.1 != name

def names (s : Shelves) (kind : Kind) : List String :=
  ((s.ofKind kind).map Prod.fst).mergeSort fun a b => a ≤ b

/-- Names that may have been meant: one much like it, or the first few. -/
def suggestion (s : Shelves) (kind : Kind) (name : String) : String :=
  let names := s.names kind
  match Text.Closeness.closest? name.toList names with
  | some near => s!". Did you mean '{near}'?"
  | none =>
      if names.isEmpty then ""
      else
        let more := if 10 < names.length then s!" ... ({names.length} total)" else ""
        ". Available: " ++ String.intercalate ", " (names.take 10) ++ more

def source (s : Shelves) (kind : Kind) (name : String) : Except Fault String :=
  match (s.ofKind kind).lookup name with
  | some text => .ok text
  | none => .error (.notFound s!"{kind.capitalized} '{name}' not found{s.suggestion kind name}")

end Shelves

structure Directories where
  views : Pathname
  embeds : Pathname
  components : Pathname
  layouts : Pathname
  suffix : String
  encoding : String
  deriving DecidableEq, Repr

namespace Directories

/- A kind whose directory is not given has one of its own under the views. -/
def ofOptions (views : String) (embeds components layouts : Option String) (suffix : String)
    (encoding : String) : Directories :=
  let views := Pathname.ofText views
  let directory (given : Option String) (name : String) : Pathname :=
    match given with
    | some path => if path.isEmpty then views.join (.ofText name) else .ofText path
    | none => views.join (.ofText name)
  { views := views
    embeds := directory embeds "partials"
    components := directory components "components"
    layouts := directory layouts "layouts"
    suffix := if suffix.isEmpty || suffix.startsWith "." then suffix else "." ++ suffix
    encoding := encoding }

def ofKind (d : Directories) : Kind → Pathname
  | .page => d.views
  | .embed => d.embeds
  | .component => d.components
  | .layout => d.layouts

def resolve (d : Directories) (kind : Kind) (name : String) : Except Fault Pathname :=
  let path := (d.ofKind kind).join (.ofText name)
  if path.suffix.isEmpty && !d.suffix.isEmpty then path.withName (path.name ++ d.suffix)
  else .ok path

def source (d : Directories) (tree : FileTree) (kind : Kind) (name : String) :
    Except Fault (String × String) := do
  let path ← d.resolve kind name
  match ← tree.file? path with
  | none =>
      .error (.notFound s!"{kind.capitalized} '{name}' not found in: {(d.ofKind kind).text}")
  | some bytes => return (← FileTree.readText d.encoding bytes, path.text)

/- The files that any name with the suffix selects in the directory of a kind and below it, by their
paths from there, in order. -/
def names (d : Directories) (tree : FileTree) (kind : Kind) : Except Fault (List String) := do
  let base := d.ofKind kind
  match ← tree.place? base with
  | some (.directory here) =>
      let pattern ← PartPattern.ofText ("*" ++ d.suffix)
      let found ← (tree.select here (.below :: pattern)).mapM fun path => do
        return (path, ← tree.file? (base.join ⟨"", path⟩))
      let files := found.filterMap fun (path, bytes) => bytes.map fun _ => path
      return (files.map (String.intercalate "/")).eraseDups.mergeSort fun a b => a ≤ b
  | _ => return []

end Directories

/- A loader of the host program. It answers from a store of its own, and names templates in a cache as
it likes: several names may go by one key. -/
structure Store where
  label : String
  encoding : String := "utf-8"
  cacheKey : Kind → String → Except Fault String
  source : Kind → String → Except Fault (String × Option String)
  names : Kind → Except Fault (List String) := fun _ => .ok []

inductive Loader where
  | memory (shelves : Shelves)
  | files (directories : Directories)
  | custom (store : Store)

namespace Loader

def slashed (kind : Kind) (name : String) : String := kind.text ++ "/" ++ name

def cacheKey (l : Loader) (kind : Kind) (name : String) : Except Fault String :=
  match l with
  | files d => do return (← d.resolve kind name).text
  | memory _ => .ok (slashed kind name)
  | custom store => store.cacheKey kind name

def source (l : Loader) (tree : FileTree) (kind : Kind) (name : String) :
    Except Fault (String × Option String) :=
  match l with
  | memory s => do return (← s.source kind name, none)
  | files d => do
      let (text, file) ← d.source tree kind name
      return (text, some file)
  | custom store => store.source kind name

def names (l : Loader) (tree : FileTree) (kind : Kind) : Except Fault (List String) :=
  match l with
  | memory s => .ok (s.names kind)
  | files d => d.names tree kind
  | custom store => store.names kind

def encoding : Loader → String
  | files d => d.encoding
  | memory _ => "utf-8"
  | custom store => store.encoding

def label : Loader → String
  | memory _ => "DictLoader"
  | files _ => "FileSystemLoader"
  | custom store => store.label

end Loader
end Medley
