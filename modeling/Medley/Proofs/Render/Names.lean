import Medley.Proofs.Template.Data
import Medley.Proofs.Value.Closed
import Medley.Render.Render

/-! The names that nodes see. Arguments, loops and components add to a scope only values that were
in it, scalars, and content: what passes from values to their parts and back, and holds of the
content, holds of everything that is added. -/
namespace Medley

namespace Layer
variable {P : Value → Prop}

theorem eachEntry (closed : Value.Closed P) {v : Value} (h : P v) {es : List (Value × Value)}
    (found : v.entries? = some es) : Each P (Value.layer es) := by
  intro e member
  obtain ⟨d, inside, named⟩ := List.mem_filterMap.mp member
  obtain ⟨k, _, rfl⟩ := Option.map_eq_some_iff.mp named
  exact (closed.entriesOf h found d inside).2

end Layer

theorem Scope.eachCons {P : Value → Prop} {layer : Layer} {scope : Scope}
    (first : Layer.Each P layer) (names : Scope.Each P scope) : Scope.Each P (layer :: scope) := by
  intro l member
  rcases List.mem_cons.mp member with rfl | outer
  · exact first
  · exact names l outer

namespace Slots

theorem addMember {buckets : Buckets} {key : String} {nodes : List (Node Value)}
    {b : String × List (Node Value)} (member : b ∈ add buckets key nodes) {n : Node Value}
    (inside : n ∈ b.2) : (∃ old ∈ buckets, n ∈ old.2) ∨ n ∈ nodes := by
  induction buckets with
  | nil =>
    rw [List.mem_singleton.mp member] at inside
    exact .inr inside
  | cons d buckets ih =>
    rw [add] at member
    split at member
    · rcases List.mem_cons.mp member with rfl | later
      · rcases List.mem_append.mp inside with old | new
        · exact .inl ⟨d, List.mem_cons_self, old⟩
        · exact .inr new
      · exact .inl ⟨b, List.mem_cons_of_mem d later, inside⟩
    · rcases List.mem_cons.mp member with rfl | later
      · exact .inl ⟨d, List.mem_cons_self, inside⟩
      · rcases ih later with ⟨old, before, here⟩ | new
        · exact .inl ⟨old, List.mem_cons_of_mem d before, here⟩
        · exact .inr new

section
variable {N : Node Value → Prop} (within : ∀ n, N n → ∀ m ∈ n.children, N m)
include within

theorem contributionHolds {child n : Node Value} (h : N child) (member : n ∈ contribution child) :
    N n := by
  unfold contribution at member
  split at member
  · split at member
    · exact within _ h n member
    · rw [List.mem_singleton.mp member]
      exact h
  · rw [List.mem_singleton.mp member]
    exact h

theorem collectHolds {children : List (Node Value)} (h : ∀ n ∈ children, N n) :
    ∀ b ∈ collect children, ∀ n ∈ b.2, N n := by
  suffices ∀ (children : List (Node Value)) (buckets : Buckets), (∀ n ∈ children, N n) →
      (∀ b ∈ buckets, ∀ n ∈ b.2, N n) →
      ∀ b ∈ children.foldl (fun buckets n => add buckets (target n) (contribution n)) buckets,
        ∀ n ∈ b.2, N n by
    refine this children _ h fun b member n inside => ?_
    rw [List.mem_singleton.mp member] at inside
    exact absurd inside List.not_mem_nil
  intro children
  induction children with
  | nil => exact fun buckets _ before => before
  | cons child children ih =>
    intro buckets each before
    refine ih _ (fun n member => each n (List.mem_cons_of_mem child member))
      fun b member n inside => ?_
    rcases addMember member inside with ⟨old, there, here⟩ | new
    · exact before old there n here
    · exact contributionHolds within (each child List.mem_cons_self) new

end

end Slots

namespace Stage
open Value (Closed)
variable {P : Value → Prop} (closed : Closed P) {s : Stage} {scope : Scope}
include closed

theorem literalHolds {token : String} {v : Value} (found : literals.lookup token = some v) :
    P v := by
  have member := Value.lookupMember found
  simp only [literals, List.mem_cons, List.not_mem_nil, or_false, Prod.mk.injEq] at member
  rcases member with ⟨_, rfl⟩ | ⟨_, rfl⟩ | ⟨_, rfl⟩ | ⟨_, rfl⟩ <;> exact closed.scalar _ rfl

theorem argumentHolds (names : Scope.Each P scope) {token : String} {v : Value}
    (found : s.argument scope token = .ok v) : P v := by
  unfold argument at found
  dsimp only at found
  split at found
  · cases found
    exact closed.text _
  · split at found
    · split at found
      · cases found
        exact closed.scalar _ rfl
      · contradiction
      · cases found
        exact closed.text _
    · split at found
      · cases found
        exact closed.scalar _ rfl
      · split at found
        · have value := closed.resolve s.host.members names token
          split at found
          · cases found
            exact Closed.get (fun v found => literalHolds closed found) closed.null
          · cases found
            exact value
        · cases found
          exact closed.text _

theorem argumentsHold (names : Scope.Each P scope) {tokens : List String} {args : List Value}
    (found : tokens.mapM (s.argument scope) = .ok args) : ∀ a ∈ args, P a := by
  intro a member
  obtain ⟨token, _, read⟩ := Frontmatter.mapMMember found a member
  exact argumentHolds closed names read

theorem entriesHold (names : Scope.Each P scope) {props : List (String × String)} {layer : Layer}
    (found : props.mapM (fun e => (s.argument scope e.2).map fun v => (e.1, v)) = .ok layer) :
    Layer.Each P layer := by
  intro e member
  obtain ⟨d, _, made⟩ := Frontmatter.mapMMember found e member
  obtain ⟨v, value, rfl⟩ := okMap made
  exact argumentHolds closed names value

theorem loopScopeHolds (names : Scope.Each P scope) (binder : String) (length index : Nat)
    {item : Value} (h : P item) : Scope.Each P (loopScope scope binder length index item) := by
  have own : Layer.Each P [("this", item), ("@index", .int index), ("@first", .bool (index = 0)),
      ("@last", .bool (index + 1 = length)), ("@length", .int length)] := by
    intro e member
    simp only [List.mem_cons, List.not_mem_nil, or_false] at member
    rcases member with rfl | rfl | rfl | rfl | rfl
    · exact h
    all_goals exact closed.scalar _ rfl
  have layer : ∀ names : Layer, Layer.Each P names →
      Layer.Each P (if (names.lookup binder).isSome then names else (binder, item) :: names) := by
    intro names each
    split
    · exact each
    · intro e member
      rcases List.mem_cons.mp member with rfl | later
      · exact h
      · exact each e later
  have first := layer _ own
  unfold loopScope
  dsimp only
  split
  · rename_i entries found
    exact Scope.eachCons first (Scope.eachCons (Layer.eachEntry closed h found) names)
  · exact Scope.eachCons first names

theorem componentLayerHolds {N : Node Value → Prop}
    (within : ∀ n, N n → ∀ m ∈ n.children, N m) {level : Nat} {props : Layer}
    {children : List (Node Value)}
    (content : ∀ ns : List (Node Value), (∀ n ∈ ns, N n) → P (.fragment level ns scope))
    (own : Layer.Each P props) (inside : ∀ n ∈ children, N n) :
    Layer.Each P (componentLayer level props children scope) := by
  refine Layer.eachSetProp (Layer.eachSetProp own _ (closed.ofLayer ?_)) _ (content _ inside)
  intro e member
  obtain ⟨b, bucket, rfl⟩ := List.mem_map.mp member
  exact content _ (Slots.collectHolds within inside b bucket)

end Stage
end Medley
