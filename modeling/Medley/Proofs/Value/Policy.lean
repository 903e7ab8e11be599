import Medley.Proofs.Value.Closed
import Medley.Render.Run
import Medley.Template.Slots

/-! Policies. A policy says which safe text, which nodes and which output a render may come
across. A value obeys it at a level if the safe text in it is allowed and if the content in it was
written below that level: then whatever is found in the value, by a path or in a scope that it
was written under, obeys the policy too. -/
namespace Medley

def Layer.Plain (layer : Layer) : Prop := ∀ e ∈ layer, e.2.Plain

namespace Node

/-- It holds of a node and of all nodes inside it. -/
inductive Every {α : Type} (q : Node α → Prop) : Node α → Prop where
  | intro {n} (here : q n) (below : ∀ m ∈ n.children, Every q m) : Every q n

theorem Every.here {α : Type} {q : Node α → Prop} {n : Node α} (h : n.Every q) : q n := by
  cases h with
  | intro here _ => exact here

theorem Every.inside {α : Type} {q : Node α → Prop} {n : Node α} (h : n.Every q) :
    ∀ m ∈ n.children, m.Every q := by
  cases h with
  | intro _ below => exact below

theorem Every.imp {α : Type} {q r : Node α → Prop} (weaker : ∀ n, q n → r n) {n : Node α}
    (h : n.Every q) : n.Every r := by
  induction h with
  | intro here _ ih => exact .intro (weaker _ here) ih

theorem childrenSize {α : Type} [SizeOf α] (n : Node α) : sizeOf n.children ≤ sizeOf n := by
  cases n with
  | cond | each | component | layout =>
    simp only [children, cond.sizeOf_spec, each.sizeOf_spec, component.sizeOf_spec,
      layout.sizeOf_spec]
    omega
  | _ =>
    simp only [children, text.sizeOf_spec, lookup.sizeOf_spec, call.sizeOf_spec,
      embed.sizeOf_spec, diagnostic.sizeOf_spec, List.nil.sizeOf_spec]
    omega

end Node

structure Policy where
  markup : String → Prop
  node : Node Value → Prop
  chunk : Chunk → Prop
  props : ∀ n, node n → Layer.Plain n.props

namespace Value

inductive Obeys (p : Policy) : Nat → Value → Prop where
  | scalar {l v} (h : v.isScalar = true) : Obeys p l v
  | markup {l s} (h : p.markup s) : Obeys p l (.markup s)
  | list {l xs} (h : ∀ x ∈ xs, Obeys p l x) : Obeys p l (.list xs)
  | tuple {l xs} (h : ∀ x ∈ xs, Obeys p l x) : Obeys p l (.tuple xs)
  | map {l es} (keys : ∀ e ∈ es, Obeys p l e.1) (values : ∀ e ∈ es, Obeys p l e.2) :
      Obeys p l (.map es)
  | layers {l scope} (names : ∀ layer ∈ scope, ∀ e ∈ layer, Obeys p l e.2) : Obeys p l (.layers scope)
  | props {l layer} (h : ∀ e ∈ layer, Obeys p l e.2) : Obeys p l (.props layer)
  | node {l n} (h : n.Every p.node) : Obeys p l (.node n)
  | fragment {l inner ns scope} (below : inner < l) (nodes : ∀ n ∈ ns, n.Every p.node)
      (names : ∀ layer ∈ scope, ∀ e ∈ layer, Obeys p inner e.2) :
      Obeys p l (.fragment inner ns scope)

end Value

def Layer.Obeys (p : Policy) (l : Nat) (layer : Layer) : Prop := ∀ e ∈ layer, e.2.Obeys p l

def Scope.Obeys (p : Policy) (l : Nat) (scope : Scope) : Prop :=
  ∀ layer ∈ scope, Layer.Obeys p l layer

namespace Value
variable {p : Policy} {l : Nat}

theorem Obeys.mono {m : Nat} {v : Value} (h : v.Obeys p l) (le : l ≤ m) : v.Obeys p m := by
  induction h generalizing m with
  | scalar h => exact .scalar h
  | markup h => exact .markup h
  | list _ ih => exact .list fun x member => ih x member le
  | tuple _ ih => exact .tuple fun x member => ih x member le
  | map _ _ ih ih' => exact .map (fun e member => ih e member le) fun e member => ih' e member le
  | layers _ ih => exact .layers fun layer inside e member => ih layer inside e member le
  | props _ ih => exact .props fun e member => ih e member le
  | node h => exact .node h
  | fragment below nodes names _ => exact .fragment (Nat.lt_of_lt_of_le below le) nodes names

theorem Obeys.items {v : Value} (h : v.Obeys p l) {xs : List Value} (found : v.items? = some xs) :
    ∀ x ∈ xs, x.Obeys p l := by
  cases h with
  | list h =>
    cases found
    exact h
  | tuple h =>
    cases found
    exact h
  | scalar h => cases v <;> contradiction
  | _ => contradiction

theorem Obeys.entries {es : List (Value × Value)} (h : (Value.map es).Obeys p l) :
    ∀ e ∈ es, e.1.Obeys p l ∧ e.2.Obeys p l := by
  cases h with
  | map keys values => exact fun e member => ⟨keys e member, values e member⟩
  | scalar h => contradiction

theorem Obeys.content {inner : Nat} {ns : List (Node Value)} {scope : Scope}
    (h : (Value.fragment inner ns scope).Obeys p l) :
    inner < l ∧ (∀ n ∈ ns, n.Every p.node) ∧ Scope.Obeys p inner scope := by
  cases h with
  | fragment below nodes names => exact ⟨below, nodes, names⟩
  | scalar h => contradiction

theorem Obeys.safe {s : String} (h : (Value.markup s).Obeys p l) : p.markup s := by
  cases h with
  | markup h => exact h
  | scalar h => contradiction

theorem noObject {id : Nat} {fields : List (String × Value)} {html : Option String} :
    ¬ (object id fields html).Obeys p l := by
  intro h
  cases h with
  | scalar h => contradiction

theorem noFunction {name text : String} : ¬ (function name text).Obeys p l := by
  intro h
  cases h with
  | scalar h => contradiction

theorem obeysLayers {scope : Scope} : (layers scope).Obeys p l ↔ Scope.Obeys p l scope := by
  refine ⟨fun h => ?_, .layers⟩
  cases h with
  | layers names => exact names
  | scalar h => contradiction

theorem obeysProps {layer : Layer} : (props layer).Obeys p l ↔ Layer.Obeys p l layer := by
  refine ⟨fun h => ?_, .props⟩
  cases h with
  | props h => exact h
  | scalar h => contradiction

theorem Obeys.every {n : Node Value} (h : (Value.node n).Obeys p l) : n.Every p.node := by
  cases h with
  | node h => exact h
  | scalar h => contradiction

theorem Plain.obeys {v : Value} (h : v.Plain) (p : Policy) (l : Nat) : v.Obeys p l := by
  induction h with
  | scalar h => exact .scalar h
  | list _ ih => exact .list ih
  | tuple _ ih => exact .tuple ih
  | map _ _ ih ih' => exact .map ih ih'

theorem obeysClosed (p : Policy) (l : Nat) : Closed (Obeys p l) where
  scalar _ h := .scalar h
  list _ h := .list h
  tuple _ h := .tuple h
  map _ h := .map (fun e member => (h e member).1) fun e member => (h e member).2
  layers _ := obeysLayers
  props _ := obeysProps
  items _ _ h found := h.items found
  entries _ h := h.entries
  object _ _ _ h := absurd h noObject
  content _ _ _ h := by
    obtain ⟨below, nodes, names⟩ := h.content
    exact ⟨fun n member => .node (nodes n member), fun layer member e here =>
      (names layer member e here).mono (Nat.le_of_lt below)⟩
  node n h := ⟨fun e member => (p.props n h.every.here e member).obeys p l,
    fun m member => .node (h.every.inside m member)⟩

theorem resolveObeys (members : Members) {scope : Scope} (h : Scope.Obeys p l scope)
    (path : String) : (resolve members scope path).Obeys p l :=
  (obeysClosed p l).resolve members h path

end Value
end Medley
