import Medley.Template.Frontmatter
import Medley.Template.Metadata
import Medley.Template.Tree

/-!
Templates: a tree with what is known about it. Reading one never fails on its markers; only a
number in its page data can be too long to read.
-/
namespace Medley

structure Template where
  nodes : List (Node Value)
  metadata : Metadata
  name : Option String
  filename : Option String

/-- How a source is read. Lines and the columns of the first line of the body are counted
further by the given offsets. -/
structure ReadOptions where
  name : Option String := none
  filename : Option String := none
  debug : Bool := false
  frontmatter : Bool := true
  lineOffset : Int := 0
  columnOffset : Int := 0

namespace Template

structure Outcome where
  template : Template
  issues : List Issue

def assemble (o : ReadOptions) (data : Layer) (lines : Nat) (body : List Char) : Outcome :=
  let reading := Reading.ofSource o.debug ⟨1 + o.lineOffset + lines, o.columnOffset⟩ body
  ⟨⟨reading.nodes, Metadata.of reading.nodes data (layoutOf data), o.name, o.filename⟩,
    reading.issues⟩

def read (o : ReadOptions) (source : String) : Except Fault Outcome := do
  let s := source.toList
  match if o.frontmatter then Frontmatter.split s else none with
  | none => return assemble o [] 0 s
  | some split => return assemble o (← Frontmatter.data split.block) split.lines split.body

end Template
end Medley
