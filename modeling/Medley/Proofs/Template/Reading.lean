import Mathlib.Data.List.Basic
import Medley.Template.Tree

/-! Reading one mark at a time. A source that is not empty is read by taking the mark at its
front into the tree and going on after it; what a mark does to the tree is one function of its
meaning, so a property of readings is proved once for that function and then for every source. -/
namespace Medley

namespace Mark

theorem rawNonempty (m : Mark) {s : List Char} (nonempty : s ≠ []) : m.raw s ≠ [] := by
  have width := m.width_pos
  have length := List.length_pos_iff.mpr nonempty
  rw [← List.length_pos_iff, Mark.raw, List.length_take]
  omega

theorem closingMeaning {s : List Char} {m : Mark}
    (h : (closingBraces? s <|> closingPercent? s) = some m) :
    ∃ closer, m.meaning = .closes closer := by
  rcases Option.or_eq_some_iff.mp (Option.orElse_eq_or.symm.trans h) with found | ⟨_, found⟩
  · unfold closingBraces? at found
    simp only [bind, Option.bind_eq_some_iff] at found
    obtain ⟨_, _, _, _, _, _, same⟩ := found
    cases same
    exact ⟨_, rfl⟩
  · unfold closingPercent? at found
    simp only [bind, Option.bind_eq_some_iff] at found
    obtain ⟨_, _, _, _, _, _, same⟩ := found
    cases same
    exact ⟨_, rfl⟩

/- What a tag is read as: a text where it is none, an element with or without children, or broken
where nothing ends the element. -/
theorem ofTag {motive : Mark → Prop} {s : List Char} (single : motive ⟨1, Nat.one_pos, .text⟩)
    (closed : ∀ tag width_pos, Tag.opening? s = some tag → tag.closed = true →
      motive ⟨s.length - tag.rest.length, width_pos,
        .element tag.name tag.props (s.length - tag.rest.length) 0 width_pos⟩)
    (paired : ∀ tag inner closing width_pos tag_pos, Tag.opening? s = some tag →
      tag.closed = false → Tag.close? tag.name.toList tag.rest = some (inner, closing) →
      motive ⟨s.length - tag.rest.length + inner + closing, width_pos,
        .element tag.name tag.props (s.length - tag.rest.length) inner tag_pos⟩)
    (unclosed : ∀ tag width_pos code message, Tag.opening? s = some tag →
      motive (brokenAt (s.length - tag.rest.length) width_pos code message)) :
    motive (tagOf s) := by
  unfold tagOf
  split
  · exact single
  · rename_i tag opened
    dsimp only
    split
    · split
      · exact closed tag _ opened ‹_›
      · rename_i paired'
        split
        · exact paired tag _ _ _ _ opened (Bool.eq_false_iff.mpr paired') ‹_›
        · exact unclosed tag _ _ _ opened
    · exact single

theorem ofNext {motive : Mark → Prop} {s : List Char}
    (text : ∀ width_pos, motive ⟨textWidth s, width_pos, .text⟩)
    (closing : ∀ m closer, (closingBraces? s <|> closingPercent? s) = some m →
      m.meaning = .closes closer → motive m)
    (note : ∀ t, s = '\x7b' :: '\x7b' :: '!' :: '-' :: '-' :: t → motive (bracesComment t))
    (braces : ∀ count count_pos t, 2 ≤ count → s = List.replicate count '\x7b' ++ t →
      motive (bracesOf count count_pos t))
    (percent : ∀ t, s = '<' :: '%' :: t → motive (percentOf t))
    (tag : motive (tagOf s)) : motive (next s) := by
  unfold next
  split
  · unfold marker
    split
    · rename_i m found
      obtain ⟨closer, meaning⟩ := closingMeaning found
      exact closing m closer found meaning
    · split
      · exact note _ rfl
      · exact braces 3 _ _ (by decide) rfl
      · exact braces 2 _ _ (by decide) rfl
      · exact percent _ rfl
      · exact tag
  · exact text _

end Mark

namespace Node
variable {α : Type}

theorem pushEmpty (siblings : List (Node α)) (p : Position) :
    push siblings (.text p "") = siblings := by
  cases siblings with
  | nil => rfl
  | cons n siblings => cases n <;> rfl

theorem pushText {s : String} (full : s ≠ "") (p : Position) (siblings : List (Node α)) :
    push siblings (.text p s) = match siblings with
      | .text q t :: rest => .text q (t ++ s) :: rest
      | siblings => .text p s :: siblings := by
  have long : s.isEmpty = false := by simpa using full
  cases siblings with
  | nil => simp [push, long]
  | cons n rest => cases n <;> simp [push, long]

theorem pushOther {n : Node α} (other : ∀ p s, n ≠ .text p s) (siblings : List (Node α)) :
    push siblings n = n :: siblings := by
  cases n with
  | text p s => exact absurd rfl (other p s)
  | _ => rfl

end Node

namespace Builder

/- The tree after a mark with the text `raw` at the front of a source that begins at `pos`. -/
def take (debug : Bool) (pos : Position) (b : Builder) (s : List Char) (raw : String) :
    Meaning → Builder
  | .text => b.push (.text pos raw)
  | .comment => b
  | .output escape content => b.push (.ofExpression pos escape content)
  | .embed name props => b.push (.embed pos name props)
  | .opens spelling header => b.openBlock spelling header pos raw
  | .closes closer => (b.close? debug closer).getD
      (b.malformed debug ⟨.strayClose, raw ++ " without an open block", pos, raw⟩)
  | .broken code message => b.malformed debug ⟨code, message, pos, raw⟩
  | .element name props tag inner _ =>
      let children := (read debug (pos.advance (s.take tag)) ⟨[], [], b.issues⟩
        ((s.drop tag).take inner)).finish debug
      ⟨Node.push b.current (.component pos name props children.current.reverse), b.frames,
        children.issues⟩

theorem readNil (debug : Bool) (pos : Position) (b : Builder) : read debug pos b [] = b := by
  rw [read, dif_pos rfl]

theorem readCons (debug : Bool) (pos : Position) (b : Builder) {s : List Char} (h : s ≠ []) :
    read debug pos b s = read debug (pos.advance ((Mark.next s).raw s))
      (b.take debug pos s (String.ofList ((Mark.next s).raw s)) (Mark.next s).meaning)
      ((Mark.next s).rest s) := by
  rw [read, dif_neg h]
  dsimp only
  congr 1
  cases (Mark.next s).meaning with
  | closes closer => simp only [take]; cases b.close? debug closer <;> rfl
  | _ => rfl

/-- What holds of every source, shown by its first mark: the children of an element and what
follows the mark are shorter. -/
theorem bySource {motive : List Char → Prop} (nil : motive [])
    (next : ∀ s, s ≠ [] → (∀ t : List Char, t.length < s.length → motive t) → motive s)
    (s : List Char) : motive s := by
  generalize size : s.length = n
  induction n using Nat.strongRecOn generalizing s with
  | ind n ih =>
    by_cases source : s = []
    · rw [source]
      exact nil
    · exact next s source fun t shorter => ih t.length (by omega) t rfl

theorem finishFrames (debug : Bool) (current : List (Node Value)) (issues : List Issue)
    (frames : List Frame) : (finishFrom debug current issues frames).frames = [] := by
  induction frames generalizing current issues with
  | nil => rfl
  | cons f frames ih => exact ih _ _

end Builder
end Medley
