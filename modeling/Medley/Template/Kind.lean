import Medley.Text.Letters
import Medley.Value.Written

/-!
What a template name refers to. Each kind has names of its own.
-/
namespace Medley

inductive Kind where
  | page
  | embed
  | component
  | layout
  deriving DecidableEq, Repr

namespace Kind

def all : List Kind := [page, embed, component, layout]

def text : Kind → String
  | page => "template"
  | embed => "partial"
  | component => "component"
  | layout => "layout"

def capitalized : Kind → String
  | page => "Template"
  | embed => "Partial"
  | component => "Component"
  | layout => "Layout"

def label : Kind → String
  | page => "TEMPLATE"
  | embed => "PARTIAL"
  | component => "COMPONENT"
  | layout => "LAYOUT"

def notFound : Kind → Code
  | page => .templateNotFound
  | embed => .partialNotFound
  | component => .componentNotFound
  | layout => .layoutNotFound

/-- The kind of a word, in letters of either case. -/
def ofText (s : String) : Except Fault Kind :=
  let word := String.ofList (Text.lower s.toList)
  match all.find? fun k => k.text = word with
  | some k => .ok k
  | none => .error (.invalidName (shownText word) "TemplateKind")

end Kind
end Medley
