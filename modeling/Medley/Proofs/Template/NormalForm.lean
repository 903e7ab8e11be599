import Mathlib.Data.List.Chain
import Medley.Proofs.Template.Headers

/-! The form of trees that are read. Texts are not empty and do not stand side by side, whether they
were appended, left by a malformed marker or spilled from an unclosed block; blocks, calls and
elements have the names that their markers ask for. -/
namespace Medley

namespace Node

def Proper (debug : Bool) : Node Value → Prop
  | .text _ content => content ≠ ""
  | .lookup _ _ _ filters => ∀ f ∈ filters, f.name ≠ ""
  | .call _ name args _ filters =>
      Token.isName name.toList = true ∧ args ≠ [] ∧ ∀ f ∈ filters, f.name ≠ ""
  | .cond _ condition _ => Text.Trimmed condition.toList
  | .each _ target binder _ => Text.Trimmed target.toList ∧ binder ≠ ""
  | .component _ name _ _ => SoundTag name
  | .embed .. => True
  | .layout .. => False
  | .diagnostic .. => debug = true

def TextsApart {α : Type} (siblings : List (Node α)) : Prop :=
  siblings.IsChain fun n m => ¬ (n.isText = true ∧ m.isText = true)

/-- Siblings in normal form, and all that is inside of them. -/
structure NormalForm (debug : Bool) (siblings : List (Node Value)) : Prop where
  apart : TextsApart siblings
  each : ∀ n ∈ siblings, n.Every fun m => m.Proper debug ∧ TextsApart m.children

variable {debug : Bool} {siblings : List (Node Value)}

theorem NormalForm.nil : NormalForm debug [] := ⟨.nil, List.forall_mem_nil _⟩

theorem NormalForm.cons {n : Node Value} (rest : NormalForm debug siblings)
    (new : n.Every fun m => m.Proper debug ∧ TextsApart m.children)
    (apart : n.isText = true → ∀ m ∈ siblings.head?, m.isText = false) :
    NormalForm debug (n :: siblings) := by
  refine ⟨List.isChain_cons.mpr ⟨fun m next both => ?_, rest.apart⟩,
    List.forall_mem_cons.mpr ⟨new, rest.each⟩⟩
  have other := apart both.1 m next
  rw [both.2] at other
  contradiction

theorem NormalForm.tail {n : Node Value} (h : NormalForm debug (n :: siblings)) :
    NormalForm debug siblings :=
  ⟨h.apart.tail, fun m member => h.each m (List.mem_cons_of_mem n member)⟩

theorem NormalForm.behindText {p : Position} {content : String}
    (h : NormalForm debug (.text p content :: siblings)) :
    ∀ m ∈ siblings.head?, m.isText = false := by
  intro m next
  have apart := (List.isChain_cons.mp h.apart).1 m next
  exact Bool.eq_false_iff.mpr fun text => apart ⟨rfl, text⟩

theorem NormalForm.reverse (h : NormalForm debug siblings) : NormalForm debug siblings.reverse := by
  refine ⟨List.isChain_reverse.mpr (h.apart.imp fun n m apart both => apart both.symm),
    fun n member => h.each n (List.mem_reverse.mp member)⟩

theorem textProper {p : Position} {content : String} (nonempty : content ≠ "") :
    (Node.text p content).Every fun m => m.Proper debug ∧ TextsApart m.children :=
  .intro ⟨nonempty, .nil⟩ fun m member => by cases member

/- A text may be empty; then it is left out. -/
def Fresh (debug : Bool) (n : Node Value) : Prop :=
  n.isText = true ∨ n.Every fun m => m.Proper debug ∧ TextsApart m.children

theorem NormalForm.fresh (h : NormalForm debug siblings) : ∀ n ∈ siblings, n.Fresh debug :=
  fun n member => .inr (h.each n member)

theorem NormalForm.pushText (h : NormalForm debug siblings) (p : Position) (content : String) :
    NormalForm debug (Node.push siblings (.text p content)) := by
  by_cases nonempty : content = ""
  · rw [nonempty, Node.pushEmpty]
    exact h
  by_cases apart : ∀ m ∈ siblings.head?, m.isText = false
  · rw [Builder.pushApart apart p nonempty]
    exact h.cons (textProper nonempty) fun _ => apart
  -- otherwise it lengthens the text that is there
  obtain ⟨q, before, rest, rfl⟩ : ∃ q before rest, siblings = .text q before :: rest := by
    cases siblings with
    | nil => exact absurd (fun m absent => by cases absent) apart
    | cons m rest => cases m with
      | text q before => exact ⟨q, before, rest, rfl⟩
      | _ => exact absurd (fun m next => by cases next; rfl) apart
  have joined : Node.push (.text q before :: rest) (.text p content) =
      .text q (before ++ content) :: rest := by simp [Node.push, nonempty]
  rw [joined]
  exact h.tail.cons (textProper (by simp [nonempty])) fun _ => h.behindText

theorem NormalForm.push (h : NormalForm debug siblings) {n : Node Value} (new : n.Fresh debug) :
    NormalForm debug (Node.push siblings n) := by
  cases text : n.isText with
  | false =>
    rw [Builder.pushMarked text]
    exact h.cons (new.resolve_left (by simp [text])) fun text' => by simp [text] at text'
  | true => cases n with
    | text p content => exact h.pushText p content
    | _ => contradiction

theorem NormalForm.pushAll (h : NormalForm debug siblings) {nodes : List (Node Value)}
    (new : ∀ n ∈ nodes, n.Fresh debug) : NormalForm debug (Node.pushAll siblings nodes) := by
  induction nodes generalizing siblings with
  | nil => exact h
  | cons n nodes ih =>
    exact ih (h.push (new n List.mem_cons_self)) fun m member =>
      new m (List.mem_cons_of_mem n member)

theorem filtersNamed (stages : List (List Char)) :
    ∀ f ∈ stages.filterMap fun stage => match Token.words stage with
      | [] => none
      | name :: args => some (FilterCall.mk (String.ofList name) (args.map String.ofList)),
    f.name ≠ "" := by
  intro f member
  obtain ⟨stage, _, made⟩ := List.mem_filterMap.mp member
  have nonempty := Token.wordsFromSome none [] stage
  rw [← Token.words] at nonempty
  split at made
  · contradiction
  · rename_i name args words
    cases made
    rw [words] at nonempty
    simpa using nonempty name List.mem_cons_self

theorem ofExpressionFresh (pos : Position) (escape : Bool) (content : List Char) :
    (Node.ofExpression pos escape content).Fresh debug := by
  have filters := filtersNamed (Token.stages content).tail
  unfold Node.ofExpression
  dsimp only
  split
  · rename_i name arg args _
    split
    · rename_i named
      refine .inr (.intro ⟨⟨by rw [String.toList_ofList]; exact named, by simp, filters⟩, .nil⟩
        fun m member => by cases member)
    · exact .inr (.intro ⟨filters, .nil⟩ fun m member => by cases member)
  · exact .inr (.intro ⟨filters, .nil⟩ fun m member => by cases member)

end Node

theorem Issue.nodeFresh (debug : Bool) (i : Issue) : (i.node debug).Fresh debug := by
  unfold Issue.node
  split
  · rename_i wanted
    exact .inr (.intro ⟨wanted, .nil⟩ fun m member => by cases member)
  · exact .inl rfl

theorem Frame.nodeFresh {debug : Bool} {f : Frame} (proper : f.header.Proper)
    {children : List (Node Value)} (inside : Node.NormalForm debug children) :
    (f.node children).Fresh debug := by
  unfold Frame.node
  cases header : f.header with
  | cond condition =>
    rw [header] at proper
    exact .inr (.intro ⟨proper, inside.apart⟩ inside.each)
  | each target binder =>
    rw [header] at proper
    exact .inr (.intro ⟨proper, inside.apart⟩ inside.each)

namespace Builder
variable {debug : Bool}

structure Normal (debug : Bool) (b : Builder) : Prop where
  current : Node.NormalForm debug b.current
  frames : ∀ f ∈ b.frames, f.header.Proper ∧ Node.NormalForm debug f.before

theorem Normal.nothing {issues : List Issue} : (⟨[], [], issues⟩ : Builder).Normal debug :=
  ⟨.nil, List.forall_mem_nil _⟩

theorem Normal.outer {f : Frame} {frames : List Frame} {current : List (Node Value)}
    {issues : List Issue} (h : (Builder.mk current (f :: frames) issues).Normal debug) :
    ∀ g ∈ frames, g.header.Proper ∧ Node.NormalForm debug g.before :=
  fun g member => h.frames g (List.mem_cons_of_mem f member)

theorem Normal.spilled {f : Frame} {frames : List Frame} {current : List (Node Value)}
    {issues : List Issue} (h : (Builder.mk current (f :: frames) issues).Normal debug) :
    (Builder.mk (spill debug f current) frames (f.unclosed :: issues)).Normal debug := by
  have before := (h.frames f List.mem_cons_self).2
  exact ⟨(before.push (Issue.nodeFresh debug f.unclosed)).pushAll h.current.reverse.fresh, h.outer⟩

theorem Normal.closeFrom (closer : Closer) (issues : List Issue) {frames : List Frame}
    {current : List (Node Value)} (h : (Builder.mk current frames issues).Normal debug) :
    (closeFrom debug closer current issues frames).Normal debug := by
  induction frames generalizing current issues with
  | nil => exact h
  | cons f frames ih =>
    rw [Builder.closeFrom]
    split
    · obtain ⟨proper, before⟩ := h.frames f List.mem_cons_self
      exact ⟨before.push (Frame.nodeFresh proper h.current.reverse), h.outer⟩
    · exact ih _ h.spilled

theorem Normal.finishFrom (issues : List Issue) {frames : List Frame}
    {current : List (Node Value)} (h : (Builder.mk current frames issues).Normal debug) :
    (finishFrom debug current issues frames).Normal debug := by
  induction frames generalizing current issues with
  | nil => exact h
  | cons f frames ih => exact ih _ h.spilled

theorem Normal.push {b : Builder} (h : b.Normal debug) {n : Node Value} (new : n.Fresh debug) :
    (b.push n).Normal debug :=
  ⟨h.current.push new, h.frames⟩

theorem Normal.malformed {b : Builder} (h : b.Normal debug) (i : Issue) :
    (b.malformed debug i).Normal debug :=
  ⟨h.current.push (Issue.nodeFresh debug i), h.frames⟩

/- What a mark adds. The children of an element are read from a shorter source. -/
theorem Normal.take {b : Builder} (h : b.Normal debug) (pos : Position) {s : List Char}
    (source : s ≠ []) (raw : String) {m : Meaning} (proper : Mark.Proper m)
    (inner : ∀ t : List Char, t.length < s.length → ∀ pos b, b.Normal debug →
      (read debug pos b t).Normal debug) : (b.take debug pos s raw m).Normal debug := by
  cases m with
  | text => exact h.push (.inl rfl)
  | comment => exact h
  | output escape content => exact h.push (Node.ofExpressionFresh pos escape content)
  | embed name props =>
    exact h.push (.inr (.intro ⟨trivial, .nil⟩ fun m member => by cases member))
  | opens spelling header =>
    exact ⟨.nil, List.forall_mem_cons.mpr ⟨⟨proper, h.current⟩, h.frames⟩⟩
  | closes closer =>
    rw [Builder.take]
    cases found : b.close? debug closer with
    | none => exact h.malformed _
    | some c =>
      obtain ⟨closer, _, found⟩ := Option.bind_eq_some_iff.mp found
      split at found
      · cases found
        exact Normal.closeFrom closer b.issues h
      · contradiction
  | broken code message => exact h.malformed _
  | element name props tag width positive =>
    have children := (inner _ (inside_length_lt width positive source) (pos.advance (s.take tag))
      ⟨[], [], b.issues⟩ .nothing).finishFrom _
    have inside := children.current.reverse
    have sound : SoundTag name := proper
    have node : (Node.component pos name props _).Fresh debug :=
      .inr (.intro ⟨sound, inside.apart⟩ inside.each)
    exact ⟨h.current.push node, h.frames⟩

theorem Normal.read {b : Builder} (h : b.Normal debug) (pos : Position) (s : List Char) :
    (read debug pos b s).Normal debug := by
  induction s using bySource generalizing pos b with
  | nil =>
    rw [readNil]
    exact h
  | next s source shorter =>
    rw [readCons debug pos b source]
    have taken := h.take pos source (String.ofList ((Mark.next s).raw s)) (Mark.nextProper s)
      fun t less pos b normal => shorter t less normal pos
    exact shorter _ ((Mark.next s).rest_length_lt source) taken _

end Builder

theorem Reading.normal (debug : Bool) (pos : Position) (s : List Char) :
    Node.NormalForm debug (Reading.ofSource debug pos s).nodes :=
  ((Builder.Normal.nothing.read pos s).finishFrom _).current.reverse

namespace Template

theorem nodesNormal {o : ReadOptions} {source : String} {out : Outcome}
    (found : read o source = .ok out) : Node.NormalForm o.debug out.template.nodes := by
  unfold read at found
  dsimp only at found
  split at found
  · cases found
    exact Reading.normal o.debug _ _
  · obtain ⟨data, _, found⟩ := okBind found
    cases found
    exact Reading.normal o.debug _ _

theorem spilledNormal : ∃ out,
    read {} "a\x7b\x7b#if x\x7d\x7db<Box>\x7b\x7b up 1 | f \x7d\x7d</Box>" = .ok out ∧
      out.template.nodes.length = 2 ∧ Node.NormalForm false out.template.nodes := by
  have whole : read {} "a\x7b\x7b#if x\x7d\x7db<Box>\x7b\x7b up 1 | f \x7d\x7d</Box>" = .ok _ := rfl
  exact ⟨_, whole, by decide +kernel, nodesNormal whole⟩

end Template
end Medley
