import Mathlib.Data.List.Basic
import Medley.Scope

/-! What can be found in a value. A property that passes from values to their parts and from parts
to what is made of them passes along paths: it holds of everything that a path leads to, in a scope
that it holds of. -/
namespace Medley

def Layer.Each (P : Value → Prop) (layer : Layer) : Prop := ∀ e ∈ layer, P e.2

def Scope.Each (P : Value → Prop) (scope : Scope) : Prop := ∀ layer ∈ scope, Layer.Each P layer

theorem Layer.eachSetProp {P : Value → Prop} {layer : Layer} (h : Each P layer) (key : String)
    {v : Value} (new : P v) : Each P (setProp layer key v) := by
  induction layer with
  | nil =>
    intro e member
    rw [List.mem_singleton.mp member]
    exact new
  | cons d layer ih =>
    obtain ⟨first, rest⟩ := List.forall_mem_cons.mp h
    rw [setProp]
    split
    · exact List.forall_mem_cons.mpr ⟨new, rest⟩
    · exact List.forall_mem_cons.mpr ⟨first, ih rest⟩

theorem Scope.flatEach {P : Value → Prop} {scope : Scope} (h : Each P scope) :
    Layer.Each P (Value.flatLayer scope) := by
  induction scope with
  | nil => exact List.forall_mem_nil _
  | cons layer scope ih =>
    obtain ⟨first, rest⟩ := List.forall_mem_cons.mp h
    suffices ∀ (layer under : Layer), Layer.Each P layer → Layer.Each P under →
        Layer.Each P (layer.foldl (fun acc e => setProp acc e.1 e.2) under) from
      this layer _ first (ih rest)
    intro layer
    induction layer with
    | nil => exact fun under _ below => below
    | cons e layer inner =>
      intro under own below
      obtain ⟨here, later⟩ := List.forall_mem_cons.mp own
      exact inner _ later (Layer.eachSetProp below _ here)

namespace Value

/- How a property passes between values, what they are made of and what they lead to. -/
structure Closed (P : Value → Prop) : Prop where
  scalar : ∀ v, v.isScalar = true → P v
  list : ∀ xs, (∀ x ∈ xs, P x) → P (list xs)
  tuple : ∀ xs, (∀ x ∈ xs, P x) → P (tuple xs)
  map : ∀ es : List (Value × Value), (∀ e ∈ es, P e.1 ∧ P e.2) → P (map es)
  layers : ∀ scope, P (layers scope) ↔ Scope.Each P scope
  props : ∀ layer, P (props layer) ↔ Layer.Each P layer
  items : ∀ v xs, P v → v.items? = some xs → ∀ x ∈ xs, P x
  entries : ∀ es, P (Value.map es) → ∀ e ∈ es, P e.1 ∧ P e.2
  object : ∀ id fs html, P (object id fs html) → Layer.Each P fs
  content : ∀ level ns scope, P (fragment level ns scope) →
    (∀ n ∈ ns, P (node n)) ∧ Scope.Each P scope
  node : ∀ n, P (node n) → Layer.Each P n.props ∧ ∀ m ∈ n.children, P (node m)

theorem closedAlways : Closed fun _ => True where
  scalar _ _ := trivial
  list _ _ := trivial
  tuple _ _ := trivial
  map _ _ := trivial
  layers _ := ⟨fun _ _ _ _ _ => trivial, fun _ => trivial⟩
  props _ := ⟨fun _ _ _ => trivial, fun _ => trivial⟩
  items _ _ _ _ _ _ := trivial
  entries _ _ _ _ := ⟨trivial, trivial⟩
  object _ _ _ _ _ _ := trivial
  content _ _ _ _ := ⟨fun _ _ => trivial, fun _ _ _ _ => trivial⟩
  node _ _ := ⟨fun _ _ => trivial, fun _ _ => trivial⟩

theorem lookupMember {α β : Type} [BEq α] [LawfulBEq α] {entries : List (α × β)} {k : α} {v : β}
    (found : entries.lookup k = some v) : (k, v) ∈ entries := by
  obtain ⟨before, after, rfl, _⟩ := List.lookup_eq_some_iff.mp found
  simp

theorem lookup?Member {α : Type} {key : Value} {v : α} {es : List (Value × α)}
    (found : lookup? key es = some v) : ∃ k, (k, v) ∈ es := by
  induction es with
  | nil => contradiction
  | cons e es ih =>
    rw [lookup?] at found
    split at found
    · cases found
      exact ⟨e.1, List.mem_cons_self⟩
    · obtain ⟨k, member⟩ := ih found
      exact ⟨k, List.mem_cons_of_mem e member⟩

namespace Closed
variable {P : Value → Prop} (closed : Closed P)
include closed

theorem text (s : String) : P (text s) := closed.scalar _ rfl

theorem null : P null := closed.scalar _ rfl

theorem undefined : P undefined := closed.scalar _ rfl

omit closed in
theorem get {o : Option Value} (h : ∀ v, o = some v → P v) {fallback : Value}
    (other : P fallback) : P (o.getD fallback) := by
  cases o with
  | none => exact other
  | some v => exact h v rfl

theorem itemAt {xs : List Value} (h : ∀ x ∈ xs, P x) (i : Int) : P (itemAt xs i) := by
  unfold Value.itemAt
  dsimp only
  generalize (if i < 0 then i + xs.length else i) = j
  split
  · exact closed.undefined
  · exact get (fun v found => h v (List.mem_of_getElem? found)) closed.undefined

theorem itemNamed {xs : List Value} (h : ∀ x ∈ xs, P x) (key : String) : P (itemNamed xs key) := by
  unfold Value.itemNamed
  split
  · exact closed.scalar _ rfl
  · split
    · exact closed.itemAt h _
    · exact closed.undefined

theorem namedEach {layer : Layer} (h : Layer.Each P layer) : ∀ e ∈ named layer, P e.1 ∧ P e.2 := by
  intro e member
  obtain ⟨d, inside, rfl⟩ := List.mem_map.mp member
  exact ⟨closed.text d.1, h d inside⟩

theorem ofLayer {layer : Layer} (h : Layer.Each P layer) : P (ofLayer layer) :=
  closed.map _ (closed.namedEach h)

theorem names {level : Nat} {ns : List (Node Value)} {scope : Scope}
    (h : P (fragment level ns scope)) : Scope.Each P scope := (closed.content _ _ _ h).2

/- What is seen as a map passes the property on to its entries. -/
theorem entriesOf {v : Value} (h : P v) {es : List (Value × Value)} (found : v.entries? = some es) :
    ∀ e ∈ es, P e.1 ∧ P e.2 := by
  cases v with
  | map es' =>
    cases found
    exact closed.entries _ h
  | layers scope =>
    cases found
    exact closed.namedEach (Scope.flatEach ((closed.layers scope).mp h))
  | props layer =>
    cases found
    exact closed.namedEach ((closed.props layer).mp h)
  | _ => contradiction

theorem plain {v : Value} (h : v.Plain) : P v := by
  induction h with
  | scalar h => exact closed.scalar _ h
  | list _ ih => exact closed.list _ ih
  | tuple _ ih => exact closed.tuple _ ih
  | map _ _ ih ih' => exact closed.map _ fun e member => ⟨ih e member, ih' e member⟩

theorem made {given v : Value} (h : P given) (made : Made given v) : P v := by
  induction made with
  | given => exact h
  | scalar h => exact closed.scalar _ h
  | list _ ih => exact closed.list _ ih
  | tuple _ ih => exact closed.tuple _ ih
  | map _ _ ih ih' => exact closed.map _ fun e member => ⟨ih e member, ih' e member⟩
  | item _ found member ih => exact closed.items _ _ ih found _ member
  | key _ found member ih => exact (closed.entriesOf ih found _ member).1
  | value _ found member ih => exact (closed.entriesOf ih found _ member).2

theorem texts (ss : List String) : P (texts ss) := by
  refine closed.tuple _ fun x member => ?_
  obtain ⟨s, _, rfl⟩ := List.mem_map.mp member
  exact closed.text s

theorem eachScalar {layer : Layer} (h : ∀ e ∈ layer, e.2.isScalar = true) : Layer.Each P layer :=
  fun e member => closed.scalar _ (h e member)

theorem nodeTuple {ns : List (Node Value)} (h : ∀ n ∈ ns, P (Value.node n)) :
    P (Value.tuple (ns.map Value.node)) := by
  refine closed.tuple _ fun x member => ?_
  obtain ⟨n, inside, rfl⟩ := List.mem_map.mp member
  exact h n inside

theorem stageTuple (filters : List FilterCall) : P (Value.tuple (filters.map Value.stage)) := by
  refine closed.tuple _ fun x member => ?_
  obtain ⟨f, _, rfl⟩ := List.mem_map.mp member
  exact closed.scalar _ rfl

theorem nodeFields {n : Node Value} (h : P (Value.node n)) : Layer.Each P (nodeFields n) := by
  obtain ⟨own, below⟩ := closed.node n h
  have position : Layer.Each P
      [("lineno", Value.int n.pos.line), ("col_offset", Value.int n.pos.column)] :=
    closed.eachScalar (by simp [isScalar])
  have name := closed.text
  have bool := fun b => closed.scalar (Value.bool b) rfl
  have children := closed.nodeTuple below
  refine List.forall_mem_append.mpr ⟨position, ?_⟩
  cases n with
  | text _ content => exact List.forall_mem_singleton.mpr (name _)
  | lookup _ path escape filters =>
    simpa using ⟨name path, bool escape, closed.stageTuple filters⟩
  | call _ callee args escape filters =>
    simpa using ⟨name callee, closed.texts args, bool escape, closed.stageTuple filters⟩
  | cond _ condition ns => simpa using ⟨name condition, children⟩
  | each _ target binder ns => simpa using ⟨name target, name binder, children⟩
  | component _ tag ps ns => simpa using ⟨name tag, (closed.props ps).mpr own, children⟩
  | embed _ callee ps =>
    have tokens : Layer.Each P (ps.map fun e => (e.1, Value.text e.2)) := by
      intro e member
      obtain ⟨d, _, rfl⟩ := List.mem_map.mp member
      exact name d.2
    simpa using ⟨name callee, (closed.props _).mpr tokens⟩
  | layout _ ps ns => simpa using ⟨(closed.props ps).mpr own, children, name (Value.layoutName ps)⟩
  | diagnostic _ code message source => simpa using ⟨name code, name message, name source⟩

theorem fields {v : Value} (h : P v) : Layer.Each P v.fields := by
  cases v with
  | object id fs html => exact closed.object id fs html h
  | fragment level ns scope =>
    obtain ⟨nodes, names⟩ := closed.content level ns scope h
    simpa [Value.fields, Layer.Each] using ⟨closed.nodeTuple nodes, (closed.layers scope).mpr names⟩
  | node n => exact closed.nodeFields h
  | stage f =>
    simpa [Value.fields, Layer.Each] using ⟨closed.text f.name, closed.texts f.args⟩
  | moment m =>
    refine closed.eachScalar ?_
    cases zoned : m.offset <;>
      simp [Value.fields, momentFields, dayFields, span, zone, zoned, isScalar]
  | bool | int | float | nan | day =>
    exact closed.eachScalar (by simp [Value.fields, intFields, dayFields, span, isScalar])
  | _ => exact List.forall_mem_nil _

theorem attributeHolds {members : Members} {v w : Value} (h : P v) {key : String}
    (found : v.attribute? members key = some w) : P w := by
  rcases Option.or_eq_some_iff.mp found with data | ⟨_, member⟩
  · exact closed.fields h _ (lookupMember data)
  · obtain ⟨made, _, rfl⟩ := Option.map_eq_some_iff.mp member
    exact closed.made h made.2

theorem segment (members : Members) {v : Value} (h : P v) (key : String) :
    P (v.segment members key) := by
  unfold Value.segment
  split
  · rename_i es _ found
    refine get (fun w here => ?_) closed.undefined
    obtain ⟨k, member⟩ := lookup?Member here
    exact (closed.entriesOf h found _ member).2
  · rename_i xs _ found
    exact closed.itemNamed (closed.items _ xs h found) key
  · split
    · exact closed.undefined
    · exact closed.undefined
    · split
      · exact closed.undefined
      · exact get (fun w found => closed.attributeHolds h found) closed.undefined

theorem along (members : Members) (keys : List String) {v : Value} (h : P v) :
    P (v.along members keys) := by
  induction keys generalizing v with
  | nil => exact h
  | cons key keys ih => exact ih (closed.segment members h key)

omit closed in
theorem scopeLookup {scope : Scope} (h : Scope.Each P scope) {name : String} {v : Value}
    (found : Scope.lookup? scope name = some v) : P v := by
  obtain ⟨layer, member, here⟩ := List.exists_of_findSome?_eq_some found
  exact h layer member _ (lookupMember here)

theorem resolve (members : Members) {scope : Scope} (h : Scope.Each P scope) (path : String) :
    P (resolve members scope path) := by
  unfold Value.resolve
  dsimp only
  split
  · exact closed.undefined
  · split
    · rename_i found
      exact scopeLookup h found
    · have head := fun name => get (o := Scope.lookup? scope name)
        (fun v found => scopeLookup h found) closed.undefined
      split
      · exact head _
      · exact head _
      · exact closed.along members _ (head _)

theorem field (members : Members) {item : Value} (h : P item) (path : String) :
    P (item.field members path) := by
  have names : Scope.Each P [[("item", item)]] := by
    intro layer member e here
    rw [List.mem_singleton.mp member] at here
    rw [List.mem_singleton.mp here]
    exact h
  unfold Value.field
  split
  · exact closed.null
  · exact closed.resolve members names _

end Closed
end Value
end Medley
