import Medley.Proofs.Template.RoundTrip
import Medley.Proofs.Template.Verbatim

/-! Siblings side by side. What is read of two sources one after the other is what is read of each,
where no text meets a text; so a tag between texts is read as it is read alone. -/
namespace Medley
open Text

/-- Where siblings go on with others, no two texts stand side by side. -/
def Node.Apart (ns ms : List (Node Value)) : Prop :=
  ∀ n ∈ ns.getLast?, n.isText = true → ∀ m ∈ ms.head?, m.isText = false

namespace Node
variable {n : Node Value} {ns ms : List (Node Value)}

theorem unplacedAppend {α : Type} (ns ms : List (Node α)) :
    unplaced.all (ns ++ ms) = unplaced.all ns ++ unplaced.all ms := by
  simp [unplacedMap]

theorem apartMarked (marked : n.isText = false) : Apart ns (n :: ms) := by
  intro _ _ _ m head
  cases head
  exact marked

theorem apartBehind (marked : n.isText = false) : Apart [n] ms := by
  intro m last text
  cases last
  exact absurd text (by simp [marked])

theorem apartRest (apart : Apart (n :: ns) ms) : Apart ns ms := by
  intro m last
  cases ns with
  | nil => cases last
  | cons => exact apart m last

end Node

namespace Builder
open Written Mark

section
variable {debug : Bool} {pos : Position} {b : Builder} {v w t : List Char}
  {ns ms ns' : List (Node Value)}

theorem addsAppend (first : Adds debug pos b v (w ++ t) ns)
    (rest : ∀ ns', Node.unplaced.all ns' = Node.unplaced.all ns →
      Adds debug (pos.advance v) (b.grown ns') w t ms) :
    Adds debug pos b (v ++ w) t (ns ++ ms) := by
  obtain ⟨ns', same, found⟩ := first
  obtain ⟨ms', same', found'⟩ := rest ns' same
  have whole : (b.grown ns').grown ms' = b.grown (ns' ++ ms') := by simp [grown]
  refine ⟨ns' ++ ms', ?_, ?_⟩
  · rw [Node.unplacedAppend, Node.unplacedAppend, same, same']
  · rw [List.append_assoc, found, found', whole, Position.advance_append]

theorem apartFront (apart : b.Apart (ns ++ ms)) : b.Apart ns := by
  intro n first
  refine apart n ?_
  rw [List.head?_append, first]
  rfl

theorem apartFirst {n : Node Value} (marked : n.isText = false) : b.Apart (n :: ns) := by
  intro m first text
  cases first
  exact absurd text (by simp [marked])

theorem apartGrown (same : Node.unplaced.all ns' = Node.unplaced.all ns)
    (beside : Node.Apart ns ms) (apart : b.Apart (ns ++ ms)) : (b.grown ns').Apart ms := by
  intro n first text m head
  have kinds := Node.unplacedSame Node.unplacedText same
  rw [grown, List.head?_append, List.head?_reverse] at head
  cases last : ns'.getLast? with
  | none =>
    -- nothing was added, so what follows stands behind what was there before
    have bare : ns = [] := by simpa [List.getLast?_eq_none_iff.mp last] using kinds.symm
    rw [last] at head
    exact apart n (by simpa [bare] using first) text m head
  | some l =>
    rw [last] at head
    cases head
    have last' : (ns.map Node.isText).getLast? = some m.isText := by
      rw [← kinds, List.getLast?_map, last]
      rfl
    rw [List.getLast?_map, Option.map_eq_some_iff] at last'
    obtain ⟨l, found, alike⟩ := last'
    by_contra isText
    have other := beside l found (alike.trans (by simpa using isText)) n first
    exact absurd text (by simp [other])

theorem addsBetween {n : Node Value} {s t u : List Char} (before : Written ns s)
    (marked : n.isText = false) (stop : ∀ x, Stops (w ++ x)) (apart : b.Apart (ns ++ n :: ms))
    (here : ∀ pos b, Adds debug pos b w (t ++ u) [n])
    (rest : ∀ pos b, b.Apart ms → Adds debug pos b t u ms) :
    Adds debug pos b (s ++ (w ++ t)) u (ns ++ n :: ms) := by
  have stops : Stops (w ++ t ++ u) := by
    rw [List.append_assoc]
    exact stop _
  refine addsAppend (readWritten before debug pos b stops (apartFront apart)) fun ns' same => ?_
  have inside : Adds debug (pos.advance s) (b.grown ns') w (t ++ u) [n] := here _ _
  refine addsAppend inside fun ns' same => rest _ _ ?_
  exact apartGrown same (Node.apartBehind marked) (apartFirst marked)

theorem addsAround {n : Node Value} {s t u : List Char} (before : Written ns s)
    (marked : n.isText = false) (stop : ∀ x, Stops (w ++ x)) (after : Written ms t)
    (ends : Stops u) (apart : b.Apart (ns ++ n :: ms))
    (here : ∀ pos b, Adds debug pos b w (t ++ u) [n]) :
    Adds debug pos b (s ++ (w ++ t)) u (ns ++ n :: ms) :=
  addsBetween before marked stop apart here fun pos b => readWritten after debug pos b ends

end

theorem addsMark {debug : Bool} {pos : Position} {b : Builder} {w t : List Char} {m : Meaning}
    (mark : Reads w t m) {n : Node Value} (n' : Node Value) (same : n'.unplaced = n.unplaced)
    (marked : n'.isText = false)
    (taken : b.take debug pos (w ++ t) (String.ofList w) m =
      ⟨Node.push b.current n', b.frames, b.issues⟩) : Adds debug pos b w t [n] :=
  ⟨[n'], by simp only [Node.unplaced.all, same],
    readMarked mark mark.some marked taken⟩

end Builder

namespace Node

def ofText (s : String) : List (Node Value) := if s = "" then [] else [.text .start s]

theorem ofTextUnplaced {s : String} {ns : List (Node Value)}
    (same : unplaced.all ns = unplaced.all (ofText s)) :
    (∀ n ∈ ns, n.isText = true) ∧ String.join (ns.map wording) = s := by
  have words : ∀ n : Node Value, n.unplaced.wording = n.wording := fun n => by cases n <;> rfl
  have saying := unplacedSame words same
  have kinds := unplacedSame unplacedText same
  unfold ofText at saying kinds
  split at saying
  · rename_i empty
    rw [List.map_eq_nil_iff.mp saying, empty]
    exact ⟨List.forall_mem_nil _, rfl⟩
  · rename_i full
    rw [if_neg full] at kinds
    refine ⟨fun n member => ?_, ?_⟩
    · have inside := List.mem_map_of_mem (f := isText) member
      rw [kinds] at inside
      exact List.mem_singleton.mp inside
    · rw [saying]
      simp [wording]

end Node

theorem Written.ofText {s : String} (plain : ∀ c ∈ s.toList, c ≠ '\x7b' ∧ c ≠ '<') :
    Written (Node.ofText s) s.toList := by
  unfold Node.ofText
  split
  · rename_i empty
    rw [empty]
    exact .nil
  · rename_i full
    have alone := Written.text (p := .start) full plain (by simp) .nil
    rwa [List.append_nil] at alone

theorem Node.textReading {s : String} (plain : ∀ c ∈ s.toList, c ≠ '\x7b' ∧ c ≠ '<') (debug : Bool)
    (pos : Position) :
    (∀ n ∈ (Reading.ofSource debug pos s.toList).nodes, n.isText = true) ∧
      String.join ((Reading.ofSource debug pos s.toList).nodes.map wording) = s := by
  obtain ⟨ms, same, reading⟩ := readingWritten (Written.ofText plain) debug pos
  rw [reading]
  exact ofTextUnplaced same

/- Text, a node wherever it is, and text again. -/
def Node.Amid (before : String) (n : Node Value) (after : String) (ns : List (Node Value)) : Prop :=
  ∃ front m back, ns = front ++ m :: back ∧ m.unplaced = n.unplaced ∧
    (∀ n ∈ front, n.isText = true) ∧ (∀ n ∈ back, n.isText = true) ∧
      String.join (front.map Node.wording) = before ∧ String.join (back.map Node.wording) = after

theorem Node.amidReading {n : Node Value} (other : n.isText = false) {tag : List Char}
    (stops : ∀ t, Mark.Stops (tag ++ t))
    (reads : ∀ debug pos b t, Builder.Adds debug pos b tag t [n]) {a b : String}
    (plainA : ∀ c ∈ a.toList, c ≠ '\x7b' ∧ c ≠ '<')
    (plainB : ∀ c ∈ b.toList, c ≠ '\x7b' ∧ c ≠ '<') (debug : Bool) (pos : Position) :
    Node.Amid a n b (Reading.ofSource debug pos (a.toList ++ (tag ++ b.toList))).nodes := by
  have adds : Builder.Adds debug pos ⟨[], [], []⟩ (a.toList ++ (tag ++ b.toList)) []
      (ofText a ++ n :: ofText b) :=
    Builder.addsAround (Written.ofText plainA) other stops (Written.ofText plainB) rfl
      (fun _ _ _ _ bare => absurd bare (by simp)) fun pos b => reads debug pos b _
  obtain ⟨ms, same, reading⟩ := Reading.ofAdds adds
  rw [reading]
  rw [unplacedMap, unplacedMap, List.map_append, List.map_cons] at same
  obtain ⟨front, others, rfl, before, same⟩ := List.map_eq_append_iff.mp same
  obtain ⟨m, back, rfl, here, after⟩ := List.map_eq_cons_iff.mp same
  simp only [← unplacedMap] at before after
  obtain ⟨frontTexts, frontWords⟩ := ofTextUnplaced before
  obtain ⟨backTexts, backWords⟩ := ofTextUnplaced after
  exact ⟨front, m, back, rfl, here, frontTexts, backTexts, frontWords, backWords⟩

end Medley
