import Medley.Diagnostic.Code

/-!
Template trees. Props are kept in the order of the source, with values of a type given by
the reader of the tree.
-/
namespace Medley

/- One stage of a pipe, with its arguments as written. -/
structure FilterCall where
  name : String
  args : List String
  deriving DecidableEq, Repr

inductive Node (α : Type) where
  | text (pos : Position) (content : String)
  -- the value at a dotted path, escaped or not, passed through filters
  | lookup (pos : Position) (path : String) (escape : Bool) (filters : List FilterCall)
  -- A helper called with arguments, then as for a lookup
  | call (pos : Position) (name : String) (args : List String) (escape : Bool)
      (filters : List FilterCall)
  | cond (pos : Position) (condition : String) (children : List (Node α))
  | each (pos : Position) (target binder : String) (children : List (Node α))
  | component (pos : Position) (name : String) (props : List (String × α))
      (children : List (Node α))
  -- A partial, by name; its props are arguments as written
  | embed (pos : Position) (name : String) (props : List (String × String))
  -- children wrapped in the layout that the prop `layout` names
  | layout (pos : Position) (props : List (String × α)) (children : List (Node α))
  -- what a malformed construct leaves behind when diagnostics are wanted
  | diagnostic (pos : Position) (code message source : String)

instance {α : Type} : Inhabited (Node α) := ⟨.text .start ""⟩

namespace Node

/- `<Slot name="x">` among a component's children fills its slot `x`. -/
def slotTag : String := "Slot"

def pos {α : Type} : Node α → Position
  | text p _ | lookup p .. | call p .. | cond p .. | each p .. | component p .. | embed p .. |
    layout p .. | diagnostic p .. => p

def kind {α : Type} : Node α → String
  | text .. => "Text"
  | lookup .. => "Variable"
  | call .. => "Helper"
  | cond .. => "IfBlock"
  | each .. => "EachBlock"
  | component .. => "Component"
  | embed .. => "Partial"
  | layout .. => "Layout"
  | diagnostic .. => "Diagnostic"

def children {α : Type} : Node α → List (Node α)
  | cond _ _ cs | each _ _ _ cs | component _ _ _ cs | layout _ _ cs => cs
  | _ => []

def props {α : Type} : Node α → List (String × α)
  | component _ _ ps _ | layout _ ps _ => ps
  | _ => []

/-- Appends to siblings held last first; text joins the text before it. -/
def push {α : Type} (siblings : List (Node α)) (n : Node α) : List (Node α) :=
  match n, siblings with
  | text _ s, text p t :: rest => if s.isEmpty then text p t :: rest else text p (t ++ s) :: rest
  | text p s, _ => if s.isEmpty then siblings else text p s :: siblings
  | _, _ => n :: siblings

def pushAll {α : Type} (siblings nodes : List (Node α)) : List (Node α) :=
  nodes.foldl push siblings

end Node

/- Sets a key in place, or adds it at the end. -/
def setProp {α : Type} (props : List (String × α)) (key : String) (value : α) :
    List (String × α) :=
  match props with
  | [] => [(key, value)]
  | (k, v) :: rest =>
      if k = key then (k, value) :: rest else (k, v) :: setProp rest key value

end Medley
