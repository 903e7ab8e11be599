import Medley.Value.Basic

/-!
What a template refers to by name: the components and partials anywhere in its tree, and the
layout that its page data names.
-/
namespace Medley

structure Metadata where
  -- everything referred to, each name once, in the order of the tree; the layout last
  dependencies : List String
  components : List String
  partials : List String
  layout : Option String
  frontmatter : Layer

inductive Reference where
  | component (name : String)
  | embed (name : String)
  deriving DecidableEq, Repr

namespace Reference

def name : Reference → String
  | component n | embed n => n

def component? : Reference → Option String
  | component n => some n
  | embed _ => none

def embed? : Reference → Option String
  | embed n => some n
  | component _ => none

end Reference

mutual

/- The references of a node, its own before those of its children. -/
def Node.references {α : Type} : Node α → List Reference
  | .text .. | .lookup .. | .call .. | .diagnostic .. => []
  | .embed _ name _ => [.embed name]
  | .cond _ _ children | .each _ _ _ children | .layout _ _ children => references.ofAll children
  | .component _ name _ children =>
      (if name = slotTag then [] else [.component name]) ++ references.ofAll children

def Node.references.ofAll {α : Type} : List (Node α) → List Reference
  | [] => []
  | n :: ns => n.references ++ references.ofAll ns

end

def firstPlaces (names : List String) : List String :=
  names.foldl (fun acc n => if n ∈ acc then acc else acc ++ [n]) []

def Metadata.of (nodes : List (Node Value)) (frontmatter : Layer) (layout : Option String) :
    Metadata :=
  let refs := Node.references.ofAll nodes
  let layouts := (layout.filter fun n => !n.isEmpty).toList
  { dependencies := firstPlaces (refs.map Reference.name ++ layouts)
    components := firstPlaces (refs.filterMap Reference.component?)
    partials := firstPlaces (refs.filterMap Reference.embed?)
    layout := layout
    frontmatter := frontmatter }

def layoutOf (frontmatter : Layer) : Option String :=
  match frontmatter.lookup "layout" with
  | some v => v.string?.filter fun s => !s.isEmpty
  | none => none

end Medley
