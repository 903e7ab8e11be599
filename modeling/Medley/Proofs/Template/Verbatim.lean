import Medley.Proofs.Template.Grammar
import Medley.Proofs.Template.Reading
import Medley.Proofs.Text.Pieces
import Medley.Template.Read

/-! Text that is kept. What stands for a malformed construct is its own text, and reading goes on
right after it; so where a source without comments is read as text alone, the texts are the source,
from its first character to its last. -/
namespace Medley

/-- No comment can begin in it. -/
structure Commentless (s : List Char) : Prop where
  mark : '!' ∉ s
  percent : ¬ "<%#".toList <:+: s

theorem Commentless.suffix {s t : List Char} (clear : Commentless s) (h : t <:+ s) :
    Commentless t :=
  ⟨fun member => clear.mark (h.subset member), fun inside => clear.percent (inside.trans h.isInfix)⟩

namespace Mark

theorem bracesMeaningComment {triple : Bool} {content raw : List Char}
    (h : bracesMeaning triple content raw = .comment) : '!' ∈ content := by
  unfold bracesMeaning at h
  split at h
  · cases h
  · rename_i inside
    exact Text.trimSubset content (inside ▸ List.mem_cons_self)
  · split at h <;> cases h
  · unfold embedMeaning at h
    split at h <;> cases h
  · split at h <;> cases h
  · cases h

theorem statementMeaningComment (content raw : List Char) :
    statementMeaning content raw ≠ .comment := by
  unfold statementMeaning
  dsimp only
  split
  · split <;> simp
  · split
    · simp
    · split <;> simp

theorem percentMeaningComment {inside raw : List Char}
    (h : percentMeaning inside raw = .comment) : ∃ more, inside = '#' :: more := by
  unfold percentMeaning at h
  dsimp only at h
  split at h
  · exact ⟨_, rfl⟩
  · split at h <;> cases h
  · split at h <;> cases h
  · split at h
    · cases h
    · exact absurd h (statementMeaningComment _ raw)

theorem tagOfComment (s : List Char) : (tagOf s).meaning ≠ .comment :=
  ofTag (motive := fun m => m.meaning ≠ .comment) nofun (fun _ _ _ _ => nofun)
    (fun _ _ _ _ _ _ _ _ => nofun) fun _ _ _ _ _ => nofun

theorem bracesOfComment {count : Nat} {positive : 0 < count} {s : List Char} (absent : '!' ∉ s) :
    (bracesOf count positive s).meaning ≠ .comment := by
  unfold bracesOf
  dsimp only
  split
  · rename_i inside rest found
    intro comment
    have member := bracesMeaningComment comment
    rw [Text.cutParts found] at absent
    exact absent (List.mem_append_left _ member)
  · simp [brokenAt]

theorem percentOfComment {s : List Char} (absent : ¬ ['#'] <+: s) :
    (percentOf s).meaning ≠ .comment := by
  unfold percentOf
  split
  · rename_i inside rest found
    intro comment
    obtain ⟨more, rfl⟩ := percentMeaningComment comment
    rw [Text.cutParts found] at absent
    exact absent ⟨more ++ (['%', '>'] ++ rest), rfl⟩
  · simp [brokenAt]

theorem nextNoComment {s : List Char} (clear : Commentless s) : (next s).meaning ≠ .comment := by
  refine ofNext (motive := fun m => m.meaning ≠ .comment) (fun _ => by simp) ?closing ?note
    ?braces ?percent (tagOfComment s)
  case closing =>
    intro m closer _ meaning
    simp [meaning]
  case note =>
    rintro t rfl
    exact absurd (by simp) clear.mark
  case braces =>
    rintro count count_pos t - rfl
    exact bracesOfComment (clear.suffix (List.suffix_append _ t)).mark
  case percent =>
    rintro t rfl
    refine percentOfComment fun start => clear.percent ?_
    obtain ⟨more, same⟩ := start
    rw [← same]
    exact ⟨[], more, by simp⟩

end Mark

namespace Node
variable {α : Type}

def wording : Node α → String
  | .text _ content => content
  | _ => ""

def contents (ns : List (Node α)) : List Char := ns.reverse.flatMap fun n => n.wording.toList

theorem contentsCons (n : Node α) (ns : List (Node α)) :
    contents (n :: ns) = contents ns ++ n.wording.toList := by
  simp [contents]

theorem contentsPush (siblings : List (Node α)) (n : Node α) :
    contents (push siblings n) = contents siblings ++ n.wording.toList := by
  unfold push
  split
  · rename_i s p t rest
    split
    · rename_i empty
      rw [String.isEmpty_iff.mp empty]
      exact (List.append_nil _).symm
    · simp [contentsCons, wording]
  · rename_i p s _
    split
    · rename_i empty
      rw [String.isEmpty_iff.mp empty]
      exact (List.append_nil _).symm
    · exact contentsCons _ _
  · exact contentsCons _ _

theorem contentsPushAll (siblings nodes : List (Node α)) :
    contents (pushAll siblings nodes.reverse) = contents siblings ++ contents nodes := by
  unfold contents
  generalize nodes.reverse = ns
  induction ns generalizing siblings with
  | nil => exact (List.append_nil _).symm
  | cons n ns ih =>
    have pushed := contentsPush siblings n
    unfold contents at pushed
    have next : pushAll siblings (n :: ns) = pushAll (push siblings n) ns := rfl
    rw [next, ih, pushed, List.flatMap_cons, List.append_assoc]

theorem textsPush {siblings : List (Node α)} {n : Node α}
    (texts : ∀ m ∈ push siblings n, m.isText = true) :
    n.isText = true ∧ ∀ m ∈ siblings, m.isText = true := by
  unfold push at texts
  split at texts
  · refine ⟨rfl, ?_⟩
    split at texts
    · exact texts
    · rw [List.forall_mem_cons] at texts ⊢
      exact ⟨rfl, texts.2⟩
  · refine ⟨rfl, ?_⟩
    split at texts
    · exact texts
    · exact (List.forall_mem_cons.mp texts).2
  · exact List.forall_mem_cons.mp texts

theorem textsPushAll {siblings nodes : List (Node α)}
    (texts : ∀ m ∈ pushAll siblings nodes, m.isText = true) :
    (∀ n ∈ nodes, n.isText = true) ∧ ∀ m ∈ siblings, m.isText = true := by
  induction nodes generalizing siblings with
  | nil => exact ⟨List.forall_mem_nil _, texts⟩
  | cons n nodes ih =>
    obtain ⟨later, pushed⟩ := ih texts
    obtain ⟨first, before⟩ := textsPush pushed
    exact ⟨List.forall_mem_cons.mpr ⟨first, later⟩, before⟩

end Node

theorem Frame.nodeNoText (f : Frame) (children : List (Node Value)) :
    (f.node children).isText = false := by
  unfold Frame.node
  split <;> rfl

namespace Builder
open Node

structure Texts (b : Builder) : Prop where
  current : ∀ n ∈ b.current, n.isText = true
  before : ∀ f ∈ b.frames, ∀ n ∈ f.before, n.isText = true

/- The text in front of open blocks, with their opening markers. -/
def outside : List Frame → List Char
  | [] => []
  | f :: frames => outside frames ++ (Node.contents f.before ++ f.raw.toList)

def contents (b : Builder) : List Char := outside b.frames ++ Node.contents b.current

/- The innermost block spilled: its opening marker is text as well. -/
theorem textsSpill {f : Frame} {frames : List Frame} {current : List (Node Value)}
    {issues : List Issue} (issues' : List Issue)
    (texts : (Builder.mk (spill false f current) frames issues).Texts) :
    (Builder.mk current (f :: frames) issues').Texts ∧
      (Builder.mk (spill false f current) frames issues).contents =
        (Builder.mk current (f :: frames) issues').contents := by
  obtain ⟨children, opener⟩ := textsPushAll texts.current
  refine ⟨⟨fun n member => children n (List.mem_reverse.mpr member), ?_⟩, ?_⟩
  · exact List.forall_mem_cons.mpr ⟨(textsPush opener).2, texts.before⟩
  · have marker : (f.unclosed.node false).wording = f.raw := rfl
    unfold contents
    dsimp only
    rw [spill, contentsPushAll, contentsPush, marker, outside]
    simp only [List.append_assoc]

theorem closedNoText {closer : Closer} {issues : List Issue} {frames : List Frame}
    {current : List (Node Value)} (fits : (frames.any fun f => f.closer = closer) = true) :
    ¬ (closeFrom false closer current issues frames).Texts := by
  induction frames generalizing current issues with
  | nil => cases fits
  | cons f frames ih =>
    rw [closeFrom]
    split
    · intro texts
      exact absurd (textsPush texts.current).1 (by simp [Frame.nodeNoText])
    · rename_i other
      refine ih ?_
      rw [List.any_cons, decide_eq_false other, Bool.false_or] at fits
      exact fits

theorem finishTexts {issues : List Issue} {frames : List Frame} {current : List (Node Value)}
    (texts : (finishFrom false current issues frames).Texts) :
    (Builder.mk current frames issues).Texts ∧
      (finishFrom false current issues frames).contents =
        (Builder.mk current frames issues).contents := by
  induction frames generalizing current issues with
  | nil => exact ⟨texts, rfl⟩
  | cons f frames ih =>
    obtain ⟨spilled, same⟩ := ih texts
    obtain ⟨before, equal⟩ := textsSpill issues spilled
    exact ⟨before, same.trans equal⟩

theorem pushTexts {b : Builder} {n : Node Value} (texts : (b.push n).Texts) :
    n.isText = true ∧ b.Texts ∧ (b.push n).contents = b.contents ++ n.wording.toList := by
  obtain ⟨isText, before⟩ := textsPush texts.current
  refine ⟨isText, ⟨before, texts.before⟩, ?_⟩
  unfold contents push
  dsimp only
  rw [contentsPush, List.append_assoc]

theorem takeTexts {pos : Position} {b : Builder} {s : List Char} {raw : String} {m : Meaning}
    (clear : m ≠ .comment) (texts : (b.take false pos s raw m).Texts) :
    b.Texts ∧ (b.take false pos s raw m).contents = b.contents ++ raw.toList := by
  have broken : ∀ code message, (b.malformed false ⟨code, message, pos, raw⟩).Texts →
      b.Texts ∧ (b.malformed false ⟨code, message, pos, raw⟩).contents =
        b.contents ++ raw.toList := fun _ _ texts =>
    (pushTexts (n := .text pos raw) ⟨texts.current, texts.before⟩).2
  cases m with
  | text => exact (pushTexts texts).2
  | comment => exact absurd rfl clear
  | output escape content =>
    refine absurd (pushTexts texts).1 ?_
    unfold Node.ofExpression
    dsimp only
    split
    · split <;> simp [Node.isText]
    · simp [Node.isText]
  | embed name props => exact absurd (pushTexts texts).1 (by simp [Node.isText])
  | opens spelling header =>
    obtain ⟨current, before⟩ := List.forall_mem_cons.mp texts.before
    refine ⟨⟨current, before⟩, ?_⟩
    simp only [take, openBlock, contents, outside, Node.contents, List.reverse_nil,
      List.flatMap_nil, List.append_nil, List.append_assoc]
  | closes closer =>
    rw [take] at texts ⊢
    cases closer with
    | none => exact broken _ _ texts
    | some closer =>
      simp only [close?, bind, Option.bind] at texts ⊢
      split at texts
      · rename_i fits
        exact absurd texts (closedNoText fits)
      · rename_i unfit
        rw [if_neg unfit]
        exact broken _ _ texts
  | broken code message => exact broken _ _ texts
  | element name props tag width positive =>
    exact absurd (texts.current (.component pos name props _) List.mem_cons_self)
      (by simp [Node.isText])

theorem readTexts {b : Builder} {pos : Position} {s : List Char} (clear : Commentless s)
    (texts : (read false pos b s).Texts) :
    b.Texts ∧ (read false pos b s).contents = b.contents ++ s := by
  induction s using bySource generalizing pos b with
  | nil =>
    rw [readNil] at texts ⊢
    exact ⟨texts, (List.append_nil _).symm⟩
  | next s source shorter =>
    rw [readCons false pos b source] at texts ⊢
    have rest : Commentless ((Mark.next s).rest s) := clear.suffix (List.drop_suffix _ _)
    obtain ⟨taken, after⟩ := shorter _ ((Mark.next s).rest_length_lt source) rest texts
    obtain ⟨before, own⟩ := takeTexts (Mark.nextNoComment clear) taken
    refine ⟨before, ?_⟩
    rw [after, own, String.toList_ofList, List.append_assoc, Mark.raw_append_rest]

end Builder

theorem Reading.verbatim {pos : Position} {s : List Char} (clear : Commentless s)
    (texts : ∀ n ∈ (ofSource false pos s).nodes, n.isText = true) :
    (ofSource false pos s).nodes.flatMap (fun n => n.wording.toList) = s := by
  have all : ((Builder.read false pos ⟨[], [], []⟩ s).finish false).Texts := by
    refine ⟨fun n member => texts n (List.mem_reverse.mpr member), ?_⟩
    rw [Builder.finish, Builder.finishFrames]
    exact List.forall_mem_nil _
  obtain ⟨before, finished⟩ := Builder.finishTexts all
  have read := (Builder.readTexts clear before).2
  have frames : ((Builder.read false pos ⟨[], [], []⟩ s).finish false).frames = [] :=
    Builder.finishFrames ..
  calc (ofSource false pos s).nodes.flatMap (fun n => n.wording.toList)
      = ((Builder.read false pos ⟨[], [], []⟩ s).finish false).contents := by
        rw [Builder.contents, frames]
        rfl
    _ = (Builder.read false pos ⟨[], [], []⟩ s).contents := finished
    _ = s := read
end Medley
