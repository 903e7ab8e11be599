import Medley.Proofs.Render.Alike
import Medley.Proofs.Value.Policy
import Medley.Proofs.Template.References

/-! Content in values. Values go into a render with whatever template content they hold; if that
content refers only to known names, and so does every template by a known name, then a render comes
across nothing else. -/
namespace Medley

namespace Value

/- It holds of every node of the content in a value, also of content in the props of nodes. -/
inductive Holds (q : Node Value → Prop) : Value → Prop where
  | scalar {v} (h : v.isScalar = true) : Holds q v
  | markup {s} : Holds q (markup s)
  | function {name text} : Holds q (function name text)
  | list {xs} (h : ∀ x ∈ xs, Holds q x) : Holds q (list xs)
  | tuple {xs} (h : ∀ x ∈ xs, Holds q x) : Holds q (tuple xs)
  | map {es} (keys : ∀ e ∈ es, Holds q e.1) (values : ∀ e ∈ es, Holds q e.2) : Holds q (map es)
  | object {id fields html} (h : ∀ e ∈ fields, Holds q e.2) : Holds q (object id fields html)
  | layers {scope} (h : ∀ layer ∈ scope, ∀ e ∈ layer, Holds q e.2) : Holds q (layers scope)
  | props {layer} (h : ∀ e ∈ layer, Holds q e.2) : Holds q (props layer)
  | node {n} (here : q n) (own : ∀ e ∈ n.props, Holds q e.2)
      (below : ∀ m ∈ n.children, Holds q (node m)) : Holds q (node n)
  | fragment {level ns scope} (nodes : ∀ n ∈ ns, Holds q (node n))
      (names : ∀ layer ∈ scope, ∀ e ∈ layer, Holds q e.2) : Holds q (fragment level ns scope)

variable {q : Node Value → Prop}

theorem holdsLayers {scope : Scope} : (layers scope).Holds q ↔ Scope.Each (Holds q) scope := by
  refine ⟨fun h => ?_, .layers⟩
  cases h with
  | layers names => exact names
  | scalar scalar => contradiction

theorem holdsProps {layer : Layer} : (props layer).Holds q ↔ Layer.Each (Holds q) layer := by
  refine ⟨fun h => ?_, .props⟩
  cases h with
  | props own => exact own
  | scalar scalar => contradiction

theorem Holds.here {n : Node Value} (h : (Value.node n).Holds q) : q n := by
  cases h with
  | node here _ _ => exact here
  | scalar scalar => contradiction

theorem Holds.inside {n : Node Value} (h : (Value.node n).Holds q) :
    Layer.Each (Holds q) n.props ∧ ∀ m ∈ n.children, (Value.node m).Holds q := by
  cases h with
  | node _ own below => exact ⟨own, below⟩
  | scalar scalar => contradiction

theorem holdsClosed : Closed (Holds q) where
  scalar _ h := .scalar h
  list _ h := .list h
  tuple _ h := .tuple h
  map _ h := .map (fun e member => (h e member).1) fun e member => (h e member).2
  layers _ := holdsLayers
  props _ := holdsProps
  items v xs h found := by
    cases h with
    | list each =>
      cases found
      exact each
    | tuple each =>
      cases found
      exact each
    | scalar scalar => cases v <;> contradiction
    | _ => cases found
  entries es h := by
    cases h with
    | map keys values => exact fun e member => ⟨keys e member, values e member⟩
    | scalar scalar => contradiction
  object id fs html h := by
    cases h with
    | object each => exact each
    | scalar scalar => contradiction
  content level ns scope h := by
    cases h with
    | fragment nodes names => exact ⟨nodes, names⟩
    | scalar scalar => contradiction
  node n h := h.inside

theorem Plain.holds {v : Value} (h : v.Plain) : v.Holds q := holdsClosed.plain h

theorem entrySize {α β : Type} [SizeOf α] [SizeOf β] {entries : List (α × β)} {e : α × β}
    (member : e ∈ entries) : sizeOf e.1 < sizeOf entries ∧ sizeOf e.2 < sizeOf entries := by
  have whole := List.sizeOf_lt_of_mem member
  obtain ⟨k, v⟩ := e
  rw [Prod.mk.sizeOf_spec] at whole
  constructor <;> dsimp only <;> omega

theorem propSize {n : Node Value} {e : String × Value} (member : e ∈ n.props) :
    sizeOf e.2 < sizeOf n := by
  have entry := (entrySize member).2
  cases n with
  | component | layout =>
    simp only [Node.props, Node.component.sizeOf_spec, Node.layout.sizeOf_spec] at entry ⊢
    omega
  | _ => cases member

theorem scopeSize {scope : Scope} {layer : Layer} {e : String × Value} (outer : layer ∈ scope)
    (member : e ∈ layer) : sizeOf e.2 < sizeOf scope :=
  Nat.lt_trans (entrySize member).2 (List.sizeOf_lt_of_mem outer)

theorem holdsAnything (every : ∀ n, q n) (v : Value) : v.Holds q := by
  cases v with
  | list xs => exact .list fun x member => holdsAnything every x
  | tuple xs => exact .tuple fun x member => holdsAnything every x
  | map es =>
    exact .map (fun e member => holdsAnything every e.1) fun e member => holdsAnything every e.2
  | object id fields html => exact .object fun e member => holdsAnything every e.2
  | fragment level ns scope =>
    exact .fragment (fun n member => holdsAnything every (node n))
      fun layer outer e member => holdsAnything every e.2
  | layers scope => exact .layers fun layer outer e member => holdsAnything every e.2
  | node n =>
    exact .node (every n) (fun e member => holdsAnything every e.2)
      fun m member => holdsAnything every (node m)
  | props layer => exact .props fun e member => holdsAnything every e.2
  | markup => exact .markup
  | function => exact .function
  | _ => exact .scalar rfl
termination_by sizeOf v
decreasing_by
  all_goals subst v
  all_goals simp only [list.sizeOf_spec, tuple.sizeOf_spec, map.sizeOf_spec, object.sizeOf_spec,
    fragment.sizeOf_spec, layers.sizeOf_spec, node.sizeOf_spec, props.sizeOf_spec]
  -- a part of a list, of entries, of a scope, of props or of children, in this order
  · exact Nat.lt_add_left 1 (List.sizeOf_lt_of_mem member)
  · exact Nat.lt_add_left 1 (List.sizeOf_lt_of_mem member)
  · exact Nat.lt_add_left 1 (entrySize member).1
  · exact Nat.lt_add_left 1 (entrySize member).2
  · have smaller := (entrySize member).2
    omega
  · have smaller := List.sizeOf_lt_of_mem member
    omega
  · have smaller := scopeSize outer member
    omega
  · exact Nat.lt_add_left 1 (scopeSize outer member)
  · exact Nat.lt_add_left 1 (propSize member)
  · have smaller := Nat.lt_of_lt_of_le (List.sizeOf_lt_of_mem member) n.childrenSize
    omega
  · exact Nat.lt_add_left 1 (entrySize member).2

/- Every property of a family is held together with the others. -/
theorem Holds.common {ι : Type} {family : ι → Node Value → Prop} (i : ι) {v : Value}
    (h : ∀ i, v.Holds (family i)) : v.Holds fun n => ∀ i, family i n := by
  induction h i with
  | scalar scalar => exact .scalar scalar
  | markup => exact .markup
  | function => exact .function
  | list _ ih =>
    have items := fun j => holdsClosed.items _ _ (h j) rfl
    exact .list fun x member => ih x member fun j => items j x member
  | tuple _ ih =>
    have items := fun j => holdsClosed.items _ _ (h j) rfl
    exact .tuple fun x member => ih x member fun j => items j x member
  | map _ _ keys values =>
    have entries := fun j => holdsClosed.entries _ (h j)
    exact .map (fun e member => keys e member fun j => (entries j e member).1)
      fun e member => values e member fun j => (entries j e member).2
  | object _ ih =>
    have fields := fun j => holdsClosed.object _ _ _ (h j)
    exact .object fun e member => ih e member fun j => fields j e member
  | layers _ ih =>
    have names := fun j => holdsLayers.mp (h j)
    exact .layers fun layer outer e member =>
      ih layer outer e member fun j => names j layer outer e member
  | props _ ih =>
    have own := fun j => holdsProps.mp (h j)
    exact .props fun e member => ih e member fun j => own j e member
  | node _ _ _ own below =>
    have parts := fun j => (h j).inside
    exact .node (fun j => (h j).here) (fun e member => own e member fun j => (parts j).1 e member)
      fun m child => below m child fun j => (parts j).2 m child
  | fragment _ _ nodes names =>
    have parts := fun j => holdsClosed.content _ _ _ (h j)
    exact .fragment (fun n member => nodes n member fun j => (parts j).1 n member)
      fun layer outer e member =>
        names layer outer e member fun j => (parts j).2 layer outer e member

theorem Holds.imp {r : Node Value → Prop} (weaker : ∀ n, q n → r n) {v : Value} (h : v.Holds q) :
    v.Holds r := by
  induction h with
  | scalar scalar => exact .scalar scalar
  | markup => exact .markup
  | function => exact .function
  | list _ ih => exact .list ih
  | tuple _ ih => exact .tuple ih
  | map _ _ keys values => exact .map keys values
  | object _ ih => exact .object ih
  | layers _ ih => exact .layers ih
  | props _ ih => exact .props ih
  | node here _ _ own below => exact .node (weaker _ here) own below
  | fragment _ _ nodes names => exact .fragment nodes names

end Value

theorem Layer.Plain.holds {q : Node Value → Prop} {layer : Layer} (h : Layer.Plain layer) :
    Layer.Each (Value.Holds q) layer := fun e member => (h e member).holds

theorem Node.Every.holds {q r : Node Value → Prop} {n : Node Value} (h : n.Every r)
    (plain : ∀ n, r n → Layer.Plain n.props) (weaker : ∀ n, r n → q n) :
    (Value.node n).Holds q := by
  induction h with
  | intro here _ ih => exact .node (weaker _ here) (plain _ here).holds ih

namespace Bounds

/-- Nodes of a kind, in templates and in values, that refer only to known names. -/
def content (q : Node Value → Prop) (known : String → Prop) : Bounds :=
  ⟨Value.Holds q, fun n => (Value.node n).Holds q, known⟩

variable {q : Node Value → Prop} {known : String → Prop}

theorem contentClosed (refers : ∀ n, q n → n.RefersTo known) : (content q known).Closed where
  values := Value.holdsClosed
  escaped := ⟨fun _ => .markup, fun _ _ _ => .markup⟩
  children _ h := h.inside.2
  props _ h := h.inside.1
  content _ _ _ nodes names := .fragment nodes names
  nodes _ _ _ h := (Value.holdsClosed.content _ _ _ h).1
  embed _ _ _ h := refers _ h.here
  component _ _ _ _ h other := (refers _ h.here).resolve_left other
  layout _ _ _ h := refers _ h.here

theorem contentHolds {debug : Bool} {t : Template} (lists : t.Lists debug known)
    (weaker : ∀ n, n.AsRead debug → n.RefersTo known → q n) : (content q known).Holds t where
  nodes n member := (lists.nodes n member).holds (fun _ h => h.1.props) fun m h => weaker m h.1 h.2
  data := lists.data.holds
  layout := lists.layout

end Bounds
end Medley
