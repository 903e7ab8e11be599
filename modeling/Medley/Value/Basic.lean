import Medley.Calendar.Moment
import Medley.Decimal.Binary
import Medley.Template.Node

/-!
The values that templates compute with. A fragment is template content that has not been
rendered yet, with the layers of names it was written under; its `level` counts the templates
around the one that wrote it. The nodes of a fragment, the props and filters of a node, and the
layers of names seen as one map are values too, since a path can lead to them.
-/
namespace Medley

/- What the host language has besides data, such as a method of a value or a span of time: its type,
what it is written as alone and inside other values, and whether it can be called. -/
structure Foreign where
  kind : String
  written : String
  shown : String
  callable : Bool
  deriving DecidableEq, Repr

inductive Value where
  | null
  | undefined
  | bool (b : Bool)
  | int (n : Int)
  | float (x : Float)
  -- A float that is no number and that can be met again: it is known by which one it is
  | nan (id : Nat)
  | text (s : String)
  -- text that is safe to emit as it stands
  | markup (s : String)
  | bytes (bytes : List UInt8)
  | list (items : List Value)
  | tuple (items : List Value)
  | map (entries : List (Value × Value))
  | day (d : Calendar.Day)
  | moment (m : Calendar.Moment)
  -- A record of the host program, known by number; one with `html` writes itself
  | object (id : Nat) (fields : List (String × Value)) (html : Option String)
  -- A function of the host program, by name
  | function (name text : String)
  | foreign (f : Foreign)
  | fragment (level : Nat) (nodes : List (Node Value)) (scope : List (List (String × Value)))
  | layers (scope : List (List (String × Value)))
  | node (n : Node Value)
  | props (entries : List (String × Value))
  | stage (f : FilterCall)

instance : Inhabited Value := ⟨.null⟩

/-- Names and their values, the innermost layer first. -/
abbrev Layer := List (String × Value)
abbrev Scope := List Layer

namespace Value

def kind : Value → String
  | null => "NoneType"
  | undefined => "_Undefined"
  | bool _ => "bool"
  | int _ => "int"
  | float _ | nan _ => "float"
  | text _ => "str"
  | markup _ => "Markup"
  | bytes _ => "bytes"
  | list _ => "list"
  | tuple _ => "tuple"
  | map _ => "dict"
  | day _ => "datetime.date"
  | moment _ => "datetime.datetime"
  | object .. => "Obj"
  | function .. => "function"
  | foreign f => f.kind
  | fragment .. => "Fragment"
  | layers _ => "ChainMap"
  | node n => n.kind
  | props _ => "mappingproxy"
  | stage _ => "FilterCall"

def shortKind (v : Value) : String :=
  String.ofList (v.kind.toList.reverse.takeWhile (· ≠ '.')).reverse

/- Lists and tuples; text and bytes are none. -/
def items? : Value → Option (List Value)
  | list xs | tuple xs => some xs
  | _ => none

def isSequence (v : Value) : Bool := v.items?.isSome

def string? : Value → Option String
  | text s | markup s => some s
  | _ => none

def named (layer : Layer) : List (Value × Value) := layer.map fun (k, v) => (text k, v)

/- One map for several layers of names: a name has the value of the innermost layer, at the place
where the outermost one has it. -/
def flatLayer (scope : Scope) : Layer :=
  scope.foldr (fun layer under => layer.foldl (fun acc (k, v) => setProp acc k v) under) []

def entries? : Value → Option (List (Value × Value))
  | map es => some es
  | layers scope => some (named (flatLayer scope))
  | props ps => some (named ps)
  | _ => none

def floatTruthy (x : Float) : Bool :=
  match Decimal.Parts.ofFloat x with
  | .nan => false
  | .infinite _ => true
  | .finite _ b => b.m != 0

/- What a condition takes for true: not null, undefined, false, zero, a value that is no
number, empty text, an empty sequence or an empty fragment. Every map counts as true. -/
def truthy : Value → Bool
  | null | undefined | nan _ => false
  | bool b => b
  | int n => n != 0
  | float x => floatTruthy x
  | text s | markup s => !s.isEmpty
  | list xs | tuple xs => !xs.isEmpty
  | fragment _ nodes _ => !nodes.isEmpty
  | bytes _ | map _ | day _ | moment _ | object .. | function .. | foreign _ | layers _ | node _ |
    props _ | stage _ => true

/- Whether an optional argument counts as given: null, undefined, false, zero and anything empty do
not. -/
def isGiven : Value → Bool
  | null | undefined => false
  | bool b => b
  | int n => n != 0
  | float x => x != 0.0
  | text s | markup s => !s.isEmpty
  | bytes bs => !bs.isEmpty
  | list xs | tuple xs => !xs.isEmpty
  | map es => !es.isEmpty
  | fragment _ nodes _ => !nodes.isEmpty
  | layers scope => scope.any fun layer => !layer.isEmpty
  | props ps => !ps.isEmpty
  | nan _ | day _ | moment _ | object .. | function .. | foreign _ | node _ | stage _ => true

def absent : Value → Bool
  | null | undefined => true
  | text s | markup s => s.isEmpty
  | _ => false

def layer (entries : List (Value × Value)) : Layer :=
  entries.filterMap fun (k, v) => k.string?.map fun s => (s, v)

def ofLayer (layer : Layer) : Value := map (named layer)

/- Neither safe text nor made of other values, and no part of a program. -/
def isScalar : Value → Bool
  | null | undefined | bool _ | int _ | float _ | nan _ | text _ | bytes _ | day _ | moment _ |
    foreign _ | stage _ => true
  | markup _ | list _ | tuple _ | map _ | object .. | function .. | fragment .. | layers _ |
    node _ | props _ => false

/- Values by what they are made of: data alone, without safe text, objects and functions of the host
program and content; or what a method of the host language can make of a given value, which is data,
the value itself, its parts, and what is made up of those. -/
inductive Plain : Value → Prop where
  | scalar {v} (h : v.isScalar = true) : Plain v
  | list {xs} (h : ∀ x ∈ xs, Plain x) : Plain (list xs)
  | tuple {xs} (h : ∀ x ∈ xs, Plain x) : Plain (tuple xs)
  | map {es} (keys : ∀ e ∈ es, Plain e.1) (values : ∀ e ∈ es, Plain e.2) : Plain (map es)

inductive Made (given : Value) : Value → Prop where
  | given : Made given given
  | scalar {v} (h : v.isScalar = true) : Made given v
  | list {xs} (h : ∀ x ∈ xs, Made given x) : Made given (list xs)
  | tuple {xs} (h : ∀ x ∈ xs, Made given x) : Made given (tuple xs)
  | map {es} (keys : ∀ e ∈ es, Made given e.1) (values : ∀ e ∈ es, Made given e.2) :
      Made given (map es)
  | item {v xs x} (h : Made given v) (found : v.items? = some xs) (member : x ∈ xs) : Made given x
  | key {v es e} (h : Made given v) (found : v.entries? = some es) (member : e ∈ es) :
      Made given e.1
  | value {v es e} (h : Made given v) (found : v.entries? = some es) (member : e ∈ es) :
      Made given e.2

end Value
end Medley
