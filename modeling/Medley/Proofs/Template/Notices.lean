import Mathlib
import Medley.Proofs.Template.Reading
import Medley.Proofs.Value.Sorted
import Medley.Template.Read

/-! Notices: what is said of a malformed construct, and where. With diagnostics, reading keeps the
notices of the issues and the notices in the tree the same, each as often as the other, from one
mark to the next; spilling a block and reading the children of an element move notices about and
drop none. -/
namespace Medley

structure Notice where
  code : String
  message : String
  pos : Position
  source : String
  deriving DecidableEq

def Issue.notice (i : Issue) : Notice := ⟨i.code.text, i.message, i.pos, i.source⟩

namespace Node
variable {α : Type}

mutual

def notices : Node α → Multiset Notice
  | .diagnostic pos code message source => {⟨code, message, pos, source⟩}
  | .cond _ _ children | .each _ _ _ children | .component _ _ _ children |
    .layout _ _ children => notices.all children
  | .text .. | .lookup .. | .call .. | .embed .. => 0

def notices.all : List (Node α) → Multiset Notice
  | [] => 0
  | n :: ns => n.notices + notices.all ns

end

theorem noticesAppend (ns ms : List (Node α)) :
    notices.all (ns ++ ms) = notices.all ns + notices.all ms := by
  induction ns with
  | nil => simp [notices.all]
  | cons n ns ih => simp only [List.cons_append, notices.all, ih, add_assoc]

theorem noticesReverse (ns : List (Node α)) : notices.all ns.reverse = notices.all ns := by
  induction ns with
  | nil => rfl
  | cons n ns ih =>
    rw [List.reverse_cons, noticesAppend, ih, notices.all, notices.all, notices.all, add_zero,
      add_comm]

theorem noticesPush (siblings : List (Node α)) (n : Node α) :
    notices.all (push siblings n) = n.notices + notices.all siblings := by
  unfold push
  split
  · split <;> simp only [notices.all, notices, zero_add]
  · split <;> simp only [notices.all, notices, zero_add]
  · rfl

theorem noticesPushAll (siblings nodes : List (Node α)) :
    notices.all (pushAll siblings nodes) = notices.all nodes + notices.all siblings := by
  induction nodes generalizing siblings with
  | nil => exact (zero_add _).symm
  | cons n nodes ih =>
    have next : pushAll siblings (n :: nodes) = pushAll (push siblings n) nodes := rfl
    rw [next, ih, noticesPush, notices.all, add_left_comm, add_assoc]

theorem noticesExpression (pos : Position) (escape : Bool) (content : List Char) :
    (ofExpression pos escape content).notices = 0 := by
  unfold ofExpression
  dsimp only
  split
  · split <;> rfl
  · rfl

end Node

theorem Issue.noticesNode (i : Issue) : (i.node true).notices = {i.notice} := rfl

theorem Frame.noticesNode (f : Frame) (children : List (Node Value)) :
    (f.node children).notices = Node.notices.all children := by
  unfold Frame.node
  split <;> rfl

namespace Builder
open Node

def notices (b : Builder) : Multiset Notice :=
  Node.notices.all b.current + (b.frames.map fun f => Node.notices.all f.before).sum

/- Each issue has left its notice, in the tree or in what stands around it. -/
def Noticed (around : Multiset Notice) (b : Builder) : Prop :=
  (b.issues.map Issue.notice : Multiset Notice) = b.notices + around

variable {around : Multiset Notice}

theorem noticedPush {b : Builder} (noticed : b.Noticed around) {n : Node Value}
    (absent : n.notices = 0) : (b.push n).Noticed around := by
  unfold Noticed notices at *
  rw [push]
  dsimp only
  rw [noticesPush, absent, zero_add]
  exact noticed

theorem noticedMalformed {b : Builder} (noticed : b.Noticed around) (i : Issue) :
    (b.malformed true i).Noticed around := by
  unfold Noticed notices at *
  rw [malformed, List.map_cons, ← Multiset.cons_coe, noticed, noticesPush, Issue.noticesNode]
  simp only [← Multiset.singleton_add, add_assoc]

theorem noticesSpill (f : Frame) (children : List (Node Value)) :
    Node.notices.all (spill true f children) =
      {f.unclosed.notice} + Node.notices.all children + Node.notices.all f.before := by
  rw [spill, noticesPushAll, noticesReverse, noticesPush, Issue.noticesNode, add_left_comm,
    add_assoc]

theorem noticedUnclosed {f : Frame} {frames : List Frame} {current : List (Node Value)}
    {issues : List Issue} (noticed : (Builder.mk current (f :: frames) issues).Noticed around) :
    (Builder.mk (spill true f current) frames (f.unclosed :: issues)).Noticed around := by
  unfold Noticed notices at *
  rw [List.map_cons, ← Multiset.cons_coe, noticed, noticesSpill]
  simp only [List.map_cons, List.sum_cons, ← Multiset.singleton_add, add_assoc]

theorem noticedClose (closer : Closer) (issues : List Issue) {frames : List Frame}
    {current : List (Node Value)} (noticed : (Builder.mk current frames issues).Noticed around) :
    (closeFrom true closer current issues frames).Noticed around := by
  induction frames generalizing current issues with
  | nil => exact noticed
  | cons f frames ih =>
    rw [closeFrom]
    split
    · unfold Noticed notices at *
      rw [noticed, noticesPush, Frame.noticesNode, noticesReverse]
      simp only [List.map_cons, List.sum_cons, add_assoc]
    · exact ih _ (noticedUnclosed noticed)

theorem noticedFinish (issues : List Issue) {frames : List Frame} {current : List (Node Value)}
    (noticed : (Builder.mk current frames issues).Noticed around) :
    (finishFrom true current issues frames).Noticed around := by
  induction frames generalizing current issues with
  | nil => exact noticed
  | cons f frames ih => exact ih _ (noticedUnclosed noticed)

theorem noticesFinished (b : Builder) :
    (b.finish true).notices = Node.notices.all (b.finish true).current := by
  unfold notices
  rw [finish, finishFrames, List.map_nil, List.sum_nil, add_zero]

theorem noticedTake {b : Builder} {pos : Position} {s : List Char} {raw : String} {m : Meaning}
    (source : s ≠ [])
    (inner : ∀ t : List Char, t.length < s.length → ∀ around pos b, b.Noticed around →
      (read true pos b t).Noticed around)
    (noticed : b.Noticed around) : (b.take true pos s raw m).Noticed around := by
  cases m with
  | text | embed => exact noticedPush noticed rfl
  | comment => exact noticed
  | output escape content => exact noticedPush noticed (noticesExpression _ _ _)
  | opens spelling header =>
    unfold Noticed notices at *
    rw [take, openBlock, noticed]
    simp only [List.map_cons, List.sum_cons, Node.notices.all, zero_add]
  | broken code message => exact noticedMalformed noticed _
  | closes closer =>
    rw [take]
    cases closer with
    | none => exact noticedMalformed noticed _
    | some closer =>
      simp only [close?, bind, Option.bind]
      split
      · exact noticedClose closer b.issues noticed
      · exact noticedMalformed noticed _
  | element name props tag width positive =>
    -- the children are read into a tree of their own, but with the issues so far: what this tree
    -- holds already is around them
    have start : (Builder.mk [] [] b.issues).Noticed (b.notices + around) := by
      unfold Noticed at *
      rw [noticed]
      exact (zero_add _).symm
    have children := noticedFinish _ (inner _ (inside_length_lt width positive source) _
      (pos.advance (s.take tag)) _ start)
    rw [take]
    generalize (read true (pos.advance (s.take tag)) ⟨[], [], b.issues⟩
      ((s.drop tag).take width)) = inside at children ⊢
    have issues : ((inside.finish true).issues.map Issue.notice : Multiset Notice) =
        (inside.finish true).notices + (b.notices + around) := children
    rw [noticesFinished] at issues
    unfold Noticed
    rw [issues]
    unfold notices
    dsimp only
    rw [noticesPush, Node.notices, noticesReverse]
    simp only [add_assoc]

theorem noticedRead {b : Builder} (pos : Position) (s : List Char) (noticed : b.Noticed around) :
    (read true pos b s).Noticed around := by
  induction s using bySource generalizing around pos b with
  | nil =>
    rw [readNil]
    exact noticed
  | next s source shorter =>
    rw [readCons true pos b source]
    exact shorter _ ((Mark.next s).rest_length_lt source) _
      (noticedTake source (fun t short around pos b => shorter t short pos) noticed)

end Builder

theorem Reading.noticed (pos : Position) (s : List Char) :
    Node.notices.all (ofSource true pos s).nodes =
      ((ofSource true pos s).issues.map Issue.notice : Multiset Notice) := by
  have start : (Builder.mk [] [] []).Noticed 0 := rfl
  have finished := Builder.noticedFinish _ (Builder.noticedRead pos s start)
  unfold ofSource
  dsimp only
  rw [Node.noticesReverse, List.map_reverse, Multiset.coe_reverse]
  refine Eq.trans ?_ finished.symm
  rw [add_zero]
  exact (Builder.noticesFinished _).symm

namespace Template

/-- With diagnostics, the notices of the issues are the notices in the tree, each as often. -/
theorem issuesNoticed {o : ReadOptions} {source : String} {out : Outcome}
    (h : read { o with debug := true } source = .ok out) :
    Node.notices.all out.template.nodes = (out.issues.map Issue.notice : Multiset Notice) := by
  unfold read at h
  dsimp only at h
  split at h
  · cases h
    exact Reading.noticed _ _
  · obtain ⟨data, _, h⟩ := okBind h
    cases h
    exact Reading.noticed _ _

/- An unclosed block with an element in it, whose children are an unclosed block and the closing
marker of the outer one; an empty tag ends the source. -/
def torn : String :=
  "\x7b\x7b#if a\x7d\x7dx<Card>\x7b\x7b#each b\x7d\x7d\x7b\x7b/if\x7d\x7d</Card>\x7b\x7b\x7d\x7d"

def tornOutcome : Outcome where
  template :=
    { nodes := [
        .diagnostic ⟨1, 0⟩ "M-PAR-002" "Unclosed \x7b\x7b#if\x7d\x7d block"
          "\x7b\x7b#if a\x7d\x7d",
        .text ⟨1, 9⟩ "x",
        .component ⟨1, 10⟩ "Card" [] [
          .diagnostic ⟨1, 16⟩ "M-PAR-002" "Unclosed \x7b\x7b#each\x7d\x7d block"
            "\x7b\x7b#each b\x7d\x7d",
          .diagnostic ⟨1, 27⟩ "M-PAR-003" "\x7b\x7b/if\x7d\x7d without an open block"
            "\x7b\x7b/if\x7d\x7d"],
        .diagnostic ⟨1, 41⟩ "M-PAR-005" "Empty \x7b\x7b\x7d\x7d tag" "\x7b\x7b\x7d\x7d"]
      metadata := Metadata.of [.component ⟨1, 10⟩ "Card" [] []] [] none
      name := none
      filename := none }
  issues := [
    ⟨.strayClose, "\x7b\x7b/if\x7d\x7d without an open block", ⟨1, 27⟩,
      "\x7b\x7b/if\x7d\x7d"⟩,
    ⟨.unclosedBlock, "Unclosed \x7b\x7b#each\x7d\x7d block", ⟨1, 16⟩,
      "\x7b\x7b#each b\x7d\x7d"⟩,
    ⟨.emptyTag, "Empty \x7b\x7b\x7d\x7d tag", ⟨1, 41⟩, "\x7b\x7b\x7d\x7d"⟩,
    ⟨.unclosedBlock, "Unclosed \x7b\x7b#if\x7d\x7d block", ⟨1, 0⟩,
      "\x7b\x7b#if a\x7d\x7d"⟩]

theorem readTorn : read { debug := true } torn = .ok tornOutcome := by cbv

theorem issuesNoticedTorn : read { debug := true } torn = .ok tornOutcome ∧
    Node.notices.all tornOutcome.template.nodes =
      (tornOutcome.issues.map Issue.notice : Multiset Notice) :=
  have found : read { ({ } : ReadOptions) with debug := true } torn = .ok tornOutcome := readTorn
  ⟨readTorn, issuesNoticed found⟩

end Template
end Medley
