import Medley.Value.Basic

/-!
A component's children sorted into slots: a slot tag gives its children to the slot it names,
a component goes whole to the slot that its prop `slot` names, and everything else is the
default slot, which is always there.
-/
namespace Medley.Slots

def defaultSlot : String := "default"

/-- The name that a prop gives, if it is text and not empty. -/
def named? (props : List (String × Value)) (key : String) : Option String :=
  match props.lookup key with
  | some v => v.string?.filter fun s => !s.isEmpty
  | none => none

def target : Node Value → String
  | .component _ name props _ =>
      if name = Node.slotTag then (named? props "name").getD defaultSlot
      else (named? props "slot").getD defaultSlot
  | _ => defaultSlot

def contribution : Node Value → List (Node Value)
  | n@(.component _ name _ children) => if name = Node.slotTag then children else [n]
  | n => [n]

abbrev Buckets := List (String × List (Node Value))

def add (buckets : Buckets) (key : String) (nodes : List (Node Value)) : Buckets :=
  match buckets with
  | [] => [(key, nodes)]
  | (k, ns) :: rest => if k = key then (k, ns ++ nodes) :: rest else (k, ns) :: add rest key nodes

def collect (children : List (Node Value)) : Buckets :=
  children.foldl (fun buckets n => add buckets (target n) (contribution n)) [(defaultSlot, [])]

/- The slots as a map of fragments, to be rendered under the given scope. -/
def fragments (level : Nat) (children : List (Node Value)) (scope : Scope) : Value :=
  .ofLayer ((collect children).map fun (name, nodes) => (name, .fragment level nodes scope))

end Medley.Slots
