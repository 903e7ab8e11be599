import Medley.Proofs.Template.Extents

/-! Reading by descent. The body of a block is read by a loop of its own, inside the loop of the
body around it, and so is the text inside an element; a closing marker that ends a block further
out is left for the loop of that block. Every turn of such a loop goes on to a later place or hands
an unread marker to a loop that takes it, so all of them end, nested no deeper than the source is
long, and what they make is what reading makes with a stack of open blocks. -/
namespace Medley
open Mark

/-- Where the reading of a body has come to: the siblings, last first, the issues, and what is left
of the source. -/
structure Stand where
  current : List (Node Value)
  issues : List Issue
  pos : Position
  rest : List Char

def Frame.leave (debug : Bool) (f : Frame) (q : Stand) (closed : Bool) : Stand :=
  if closed then { q with current := Node.push f.before (f.node q.current.reverse) }
  else { q with
    current := Builder.spill debug f q.current
    issues := f.unclosed :: q.issues }

/- What one turn of the loop over a body does. A body that is read within it is read from `start`,
and the loop then goes on as `resume` says. -/
inductive Turn where
  | returns (closed : Bool) (q : Stand)
  | on (q : Stand)
  | calls (around : List Closer) (start : Stand) (resume : Stand → Bool → Stand)

namespace Stand

def past (p : Stand) (current : List (Node Value)) (issues : List Issue) : Stand :=
  let m := Mark.next p.rest
  ⟨current, issues, p.pos.advance (m.raw p.rest), m.rest p.rest⟩

def add (debug : Bool) (p : Stand) (m : Meaning) : Stand :=
  let b := Builder.take debug p.pos ⟨p.current, [], p.issues⟩ p.rest
    (String.ofList ((Mark.next p.rest).raw p.rest)) m
  p.past b.current b.issues

/- One turn of the loop over a body. The closing markers that its block and the blocks around it
wait for are `around`, the own one first; the outermost body has none. -/
def turn (debug : Bool) (around : List Closer) (p : Stand) : Turn :=
  if p.rest = [] then .returns around.isEmpty p
  else match (Mark.next p.rest).meaning with
    | .closes (some closer) =>
        if around.head? = some closer then .returns true (p.past p.current p.issues)
        else if closer ∈ around then .returns false p
        else .on (p.add debug (.closes (some closer)))
    | .opens spelling header =>
        let f : Frame := ⟨spelling, header, p.pos,
          String.ofList ((Mark.next p.rest).raw p.rest), p.current⟩
        .calls (f.closer :: around) (p.past [] p.issues) (f.leave debug)
    | .element name props tag inner _ =>
        .calls [] ⟨[], p.issues, p.pos.advance (p.rest.take tag), (p.rest.drop tag).take inner⟩
          fun q _ => p.past
            (Node.push p.current (.component p.pos name props q.current.reverse)) q.issues
    | m => .on (p.add debug m)

end Stand

structure Exit where
  stand : Stand
  closed : Bool
  depth : Nat
  turns : Nat

/- A run of the loop over a body, with the runs of all loops within it. -/
inductive Loop (debug : Bool) : List Closer → Stand → Exit → Prop where
  | returns {around p q closed} (turn : p.turn debug around = .returns closed q) :
      Loop debug around p ⟨q, closed, 0, 1⟩
  | on {around p q e} (turn : p.turn debug around = .on q) (later : Loop debug around q e) :
      Loop debug around p { e with turns := e.turns + 1 }
  | calls {around p inside start resume i e}
      (turn : p.turn debug around = .calls inside start resume)
      (inner : Loop debug inside start i)
      (later : Loop debug around (resume i.stand i.closed) e) :
      Loop debug around p
        ⟨e.stand, e.closed, max (i.depth + 1) e.depth, i.turns + e.turns + 1⟩

theorem loopUnique {debug : Bool} {around : List Closer} {p : Stand} {e e' : Exit}
    (first : Loop debug around p e) (second : Loop debug around p e') : e = e' := by
  induction first generalizing e' with
  | returns turn =>
    cases second with
    | returns turn' => cases turn.symm.trans turn'; rfl
    | on turn' => cases turn.symm.trans turn'
    | calls turn' => cases turn.symm.trans turn'
  | on turn _ ih =>
    cases second with
    | returns turn' => cases turn.symm.trans turn'
    | on turn' later => cases turn.symm.trans turn'; rw [ih later]
    | calls turn' => cases turn.symm.trans turn'
  | calls turn _ _ ihInner ihLater =>
    cases second with
    | returns turn' => cases turn.symm.trans turn'
    | on turn' => cases turn.symm.trans turn'
    | calls turn' inner later =>
      cases turn.symm.trans turn'
      cases ihInner inner
      rw [ihLater later]

inductive Taken (debug : Bool) (s : List Char) : List Closer → Prop where
  | here {around} (takes : ∀ p : Stand, p.rest = s →
      ∃ q, p.turn debug around = .returns true q ∧ Later s q.rest) : Taken debug s around
  | further {k around} (leaves : ∀ p : Stand, p.rest = s →
      p.turn debug (k :: around) = .returns false p) (taken : Taken debug s around) :
      Taken debug s (k :: around)

/- What a body read within another takes of the source, and what the two take. The body around a
block's goes on where that one was left. -/
structure Called (around inside : List Closer) (p start : Stand) (resume : Stand → Bool → Stand) :
    Prop where
  handed : inside ≠ [] → inside.tail = around ∧
    ∀ q closed, (resume q closed).pos = q.pos ∧ (resume q closed).rest = q.rest
  room : start.rest.length + 4 ≤ p.rest.length
  later : ∀ q closed, q.rest <:+ start.rest → Later p.rest (resume q closed).rest
  both : ∀ q closed, q.rest <:+ start.rest →
    start.rest.length + (resume q closed).rest.length + 4 ≤ p.rest.length + q.rest.length

def Turn.Moves (debug : Bool) (around : List Closer) (p : Stand) : Turn → Prop
  | .returns true q => p.rest = [] ∧ q = p ∨ Later p.rest q.rest
  | .returns false q => q = p ∧ (p.rest = [] ∨ Taken debug p.rest around.tail)
  | .on q => Later p.rest q.rest
  | .calls inside start resume => Called around inside p start resume

namespace Stand
variable {debug : Bool} {around : List Closer} {p : Stand}

theorem pastLater (nonempty : p.rest ≠ []) (current : List (Node Value)) (issues : List Issue) :
    Later p.rest (p.past current issues).rest :=
  laterDrop nonempty (Mark.next p.rest).width_pos

theorem turnOwn {k : Closer} (nonempty : p.rest ≠ [])
    (meaning : (Mark.next p.rest).meaning = .closes (some k)) (own : around.head? = some k) :
    p.turn debug around = .returns true (p.past p.current p.issues) := by
  rw [turn, if_neg nonempty, meaning]
  exact if_pos own

theorem turnOuter {k : Closer} (nonempty : p.rest ≠ [])
    (meaning : (Mark.next p.rest).meaning = .closes (some k)) (other : around.head? ≠ some k)
    (owned : k ∈ around) : p.turn debug around = .returns false p := by
  rw [turn, if_neg nonempty, meaning]
  dsimp only
  rw [if_neg other, if_pos owned]

theorem closingTaken {s : List Char} {k : Closer} (nonempty : s ≠ [])
    (meaning : (Mark.next s).meaning = .closes (some k)) (owned : k ∈ around) :
    Taken debug s around := by
  induction around with
  | nil => cases owned
  | cons j around ih =>
    by_cases own : j = k
    · refine .here ?_
      rintro p rfl
      exact ⟨_, turnOwn nonempty meaning (congrArg some own), pastLater nonempty _ _⟩
    · have outer := (List.mem_cons.mp owned).resolve_left (Ne.symm own)
      refine .further ?_ (ih outer)
      rintro p rfl
      exact turnOuter nonempty meaning (fun same => own (Option.some.inj same)) owned

theorem blockCalled (nonempty : p.rest ≠ []) {spelling : Spelling} {header : Header}
    (meaning : (Mark.next p.rest).meaning = .opens spelling header) (f : Frame)
    (issues : List Issue) :
    Called around (f.closer :: around) p (p.past [] issues) (f.leave debug) := by
  have later := pastLater nonempty [] issues
  have width := nextWidth nonempty
  have spans := nextSpans p.rest
  rw [meaning] at spans
  have same : ∀ q closed, (f.leave debug q closed).pos = q.pos ∧
      (f.leave debug q closed).rest = q.rest := by
    intro q closed
    cases closed <;> exact ⟨rfl, rfl⟩
  have length : (p.past [] issues).rest.length = p.rest.length - (Mark.next p.rest).width :=
    List.length_drop
  have room : (p.past [] issues).rest.length + 4 ≤ p.rest.length := by
    dsimp only [Spans] at spans
    omega
  refine ⟨fun _ => ⟨rfl, same⟩, room, fun q closed within => ?_, fun q closed within => ?_⟩
  · rw [(same q closed).2]
    exact later.back within
  · rw [(same q closed).2]
    omega

theorem elementCalled (nonempty : p.rest ≠ []) {name : String} {props : List (String × Value)}
    {tag inner : Nat} {tag_pos : 0 < tag}
    (meaning : (Mark.next p.rest).meaning = .element name props tag inner tag_pos)
    {start : Stand} (inside : start.rest = (p.rest.drop tag).take inner)
    (current : Stand → List (Node Value)) :
    Called around [] p start fun q _ => p.past (current q) q.issues := by
  have width := nextWidth nonempty
  have spans := nextSpans p.rest
  rw [meaning] at spans
  have length : start.rest.length ≤ inner := by
    rw [inside, List.length_take]
    exact Nat.min_le_left _ _
  have after : ∀ q : Stand, (p.past (current q) q.issues).rest.length =
      p.rest.length - (Mark.next p.rest).width := fun _ => List.length_drop
  dsimp only [Spans] at spans
  refine ⟨fun ended => absurd rfl ended, by omega, fun q _ _ => pastLater nonempty _ _,
    fun q _ _ => ?_⟩
  rw [after]
  omega

theorem turnMoves (debug : Bool) (around : List Closer) (p : Stand) :
    (p.turn debug around).Moves debug around p := by
  unfold turn
  split
  · rename_i ended
    cases around with
    | nil => exact .inl ⟨ended, rfl⟩
    | cons => exact ⟨rfl, .inl ended⟩
  · rename_i nonempty
    split
    · rename_i closer meaning
      split
      · exact .inr (pastLater nonempty _ _)
      · rename_i other
        split
        · rename_i owned
          cases around with
          | nil => cases owned
          | cons k around =>
            have outer := (List.mem_cons.mp owned).resolve_left fun same => other (same ▸ rfl)
            exact ⟨rfl, .inr (closingTaken nonempty meaning outer)⟩
        · exact pastLater nonempty _ _
    · rename_i meaning
      exact blockCalled nonempty meaning _ _
    · rename_i meaning
      exact elementCalled nonempty meaning rfl _
    · exact pastLater nonempty _ _

end Stand

/- What a run takes: of the source it leaves an end, four characters stand for each loop that is
nested, and there are no more than two turns for a character. -/
structure Exit.Fits (p : Stand) (e : Exit) : Prop where
  suffix : e.stand.rest <:+ p.rest
  depth : 4 * e.depth ≤ p.rest.length
  turns : e.turns + 2 * e.stand.rest.length ≤ 2 * p.rest.length + 1

theorem loopFits {debug : Bool} {around : List Closer} {p : Stand} {e : Exit}
    (loop : Loop debug around p e) : e.Fits p := by
  induction loop with
  | @returns around p q closed turn =>
    have moves := Stand.turnMoves debug around p
    rw [turn] at moves
    have suffix : q.rest <:+ p.rest := by
      cases closed with
      | true =>
        rcases moves with ⟨_, rfl⟩ | later
        · exact List.suffix_rfl
        · exact later.suffix
      | false => exact moves.1 ▸ List.suffix_rfl
    have length := suffix.length_le
    exact ⟨suffix, Nat.zero_le _, by dsimp only; omega⟩
  | @on around p q e turn _ ih =>
    have moves : Later p.rest q.rest := by
      have moves := Stand.turnMoves debug around p
      rwa [turn] at moves
    have shorter := moves.shorter
    have depth := ih.depth
    have turns := ih.turns
    exact ⟨ih.suffix.trans moves.suffix, by dsimp only; omega, by dsimp only; omega⟩
  | @calls around p inside start resume i e turn _ _ ihInner ihLater =>
    have called : Called around inside p start resume := by
      have moves := Stand.turnMoves debug around p
      rwa [turn] at moves
    have later := called.later i.stand i.closed ihInner.suffix
    have both := called.both i.stand i.closed ihInner.suffix
    have room := called.room
    have shorter := later.shorter
    have depth := ihInner.depth
    have depth' := ihLater.depth
    have turns := ihInner.turns
    have turns' := ihLater.turns
    exact ⟨ihLater.suffix.trans later.suffix, by dsimp only; omega, by dsimp only; omega⟩

theorem loopEnds (debug : Bool) (around : List Closer) (p : Stand) :
    ∃ e, Loop debug around p e := by
  generalize size : p.rest.length = n
  induction n using Nat.strongRecOn generalizing p around with
  | ind n ih =>
    have moves := Stand.turnMoves debug around p
    cases turn : p.turn debug around with
    | returns closed q => exact ⟨_, .returns turn⟩
    | on q =>
      rw [turn] at moves
      obtain ⟨e, later⟩ := ih q.rest.length (size ▸ moves.shorter) around q rfl
      exact ⟨_, .on turn later⟩
    | calls inside start resume =>
      rw [turn] at moves
      have room := moves.room
      obtain ⟨i, inner⟩ := ih start.rest.length (by omega) inside start rfl
      have after := moves.later i.stand i.closed (loopFits inner).suffix
      obtain ⟨e, later⟩ := ih _ (size ▸ after.shorter) around (resume i.stand i.closed) rfl
      exact ⟨_, .calls turn inner later⟩

namespace Builder
variable (debug : Bool) (current : List (Node Value)) (issues : List Issue) {k : Closer}
  {f : Frame} {outer : List Frame}

theorem closeOwn (own : f.closer = k) :
    (Builder.mk current (f :: outer) issues).close? debug (some k) =
      some ⟨Node.push f.before (f.node current.reverse), outer, issues⟩ := by
  simp [close?, closeFrom, own]

theorem closeOuter (other : f.closer ≠ k) :
    (Builder.mk current (f :: outer) issues).close? debug (some k) =
      (Builder.mk (spill debug f current) outer (f.unclosed :: issues)).close? debug (some k) := by
  simp [close?, closeFrom, other]

theorem closeStray {frames : List Frame} (stray : k ∉ frames.map Frame.closer) :
    (Builder.mk current frames issues).close? debug (some k) = none := by
  have ended : ¬ (frames.any fun f => decide (f.closer = k)) = true := by
    simpa [List.mem_map] using stray
  exact if_neg ended

theorem closeOwned {frames : List Frame} (owned : k ∈ frames.map Frame.closer) :
    ∃ b, (Builder.mk current frames issues).close? debug (some k) = some b := by
  have known : (frames.any fun f => decide (f.closer = k)) = true := by
    simpa [List.mem_map] using owned
  exact ⟨_, if_pos known⟩

end Builder

namespace Stand

/- What is read from here to the end of the source, with these blocks open. -/
def reading (debug : Bool) (frames : List Frame) (p : Stand) : Builder :=
  (Builder.read debug p.pos ⟨p.current, frames, p.issues⟩ p.rest).finish debug

def resumed (debug : Bool) : List Frame → Stand → Bool → Builder
  | [], q, _ => ⟨q.current, [], q.issues⟩
  | f :: outer, q, closed => (f.leave debug q closed).reading debug outer

end Stand

/- A turn changes nothing in what is read to the end. -/
def Turn.Reads (debug : Bool) (frames : List Frame) (p : Stand) : Turn → Prop
  | .returns closed q => p.reading debug frames = q.resumed debug frames closed
  | .on q => p.reading debug frames = q.reading debug frames
  | .calls inside start resume => ∃ within : List Frame, within.map Frame.closer = inside ∧
      ∀ q closed, start.reading debug within = q.resumed debug within closed →
        p.reading debug frames = (resume q closed).reading debug frames

namespace Stand
variable (debug : Bool) (frames : List Frame) {p : Stand}

theorem readingCons (nonempty : p.rest ≠ []) : p.reading debug frames =
    let b := Builder.take debug p.pos ⟨p.current, frames, p.issues⟩ p.rest
      (String.ofList ((Mark.next p.rest).raw p.rest)) (Mark.next p.rest).meaning
    (p.past b.current b.issues).reading debug b.frames := by
  rw [reading, Builder.readCons debug p.pos _ nonempty]
  rfl

theorem endReads (ended : p.rest = []) :
    p.reading debug frames = p.resumed debug frames (frames.map Frame.closer).isEmpty := by
  have all : ∀ (q : Stand) (outer : List Frame), q.rest = [] → q.reading debug outer =
      Builder.finishFrom debug q.current q.issues outer := by
    intro q outer ended
    rw [reading, ended, Builder.readNil]
    rfl
  rw [all p frames ended]
  cases frames with
  | nil => rfl
  | cons f outer => exact (all (f.leave debug p false) outer ended).symm

theorem closingReads {k : Closer} (nonempty : p.rest ≠ [])
    (meaning : (Mark.next p.rest).meaning = .closes (some k)) :
    (p.turn debug (frames.map Frame.closer)).Reads debug frames p := by
  have step := readingCons debug frames nonempty
  rw [meaning] at step
  dsimp only [Builder.take] at step
  by_cases owned : k ∈ frames.map Frame.closer
  · cases frames with
    | nil => cases owned
    | cons f outer =>
      by_cases own : f.closer = k
      · have head : ((f :: outer).map Frame.closer).head? = some k := congrArg some own
        rw [turnOwn nonempty meaning head]
        rw [Builder.closeOwn debug _ _ own] at step
        exact step
      · have other : ((f :: outer).map Frame.closer).head? ≠ some k :=
          fun same => own (Option.some.inj same)
        have further := (List.mem_cons.mp owned).resolve_left (Ne.symm own)
        have left := readingCons debug outer (p := f.leave debug p false) nonempty
        have same : (Mark.next (f.leave debug p false).rest).meaning = .closes (some k) := meaning
        obtain ⟨b, closed⟩ := Builder.closeOwned debug (Builder.spill debug f p.current)
          (f.unclosed :: p.issues) further
        have closed' : (Builder.mk (f.leave debug p false).current outer
          (f.leave debug p false).issues).close? debug (some k) = some b := closed
        rw [turnOuter nonempty meaning other owned]
        rw [Builder.closeOuter debug _ _ own, closed] at step
        rw [same] at left
        dsimp only [Builder.take] at left
        rw [closed'] at left
        exact step.trans left.symm
  · have other : (frames.map Frame.closer).head? ≠ some k :=
      fun same => owned (List.mem_of_head? same)
    rw [Builder.closeStray debug _ _ owned] at step
    rw [turn, if_neg nonempty, meaning]
    dsimp only
    rw [if_neg other, if_neg owned]
    exact step

theorem turnReads (p : Stand) :
    (p.turn debug (frames.map Frame.closer)).Reads debug frames p := by
  by_cases ended : p.rest = []
  · have ends := endReads debug frames ended
    rw [turn, if_pos ended]
    exact ends
  · have step := readingCons debug frames ended
    cases meaning : (Mark.next p.rest).meaning with
    | closes closer =>
      cases closer with
      | some k => exact closingReads debug frames ended meaning
      | none =>
        rw [turn, if_neg ended, meaning]
        rw [meaning] at step
        exact step
    | opens spelling header =>
      rw [turn, if_neg ended, meaning]
      rw [meaning] at step
      refine ⟨⟨spelling, header, p.pos, String.ofList ((Mark.next p.rest).raw p.rest),
        p.current⟩ :: frames, rfl, fun q closed inside => ?_⟩
      exact step.trans inside
    | element name props tag inner tag_pos =>
      rw [turn, if_neg ended, meaning]
      rw [meaning] at step
      refine ⟨[], rfl, fun q closed inside => ?_⟩
      dsimp only [reading, resumed] at inside
      dsimp only [Builder.take] at step
      rw [inside] at step
      exact step
    | _ =>
      rw [turn, if_neg ended, meaning]
      rw [meaning] at step
      exact step

end Stand

theorem loopReads {debug : Bool} {around : List Closer} {p : Stand} {e : Exit}
    (loop : Loop debug around p e) (frames : List Frame) (fits : frames.map Frame.closer = around) :
    p.reading debug frames = e.stand.resumed debug frames e.closed := by
  induction loop generalizing frames with
  | @returns _ p _ _ turn =>
    subst fits
    have reads := Stand.turnReads debug frames p
    rwa [turn] at reads
  | @on _ p _ _ turn _ ih =>
    subst fits
    have reads := Stand.turnReads debug frames p
    rw [turn] at reads
    exact reads.trans (ih frames rfl)
  | @calls _ p _ _ _ _ _ turn _ _ ihInner ihLater =>
    subst fits
    have reads := Stand.turnReads debug frames p
    rw [turn] at reads
    obtain ⟨within, same, resumes⟩ := reads
    exact (resumes _ _ (ihInner within same)).trans (ihLater frames rfl)

theorem outermostReturns {debug closed : Bool} {p q : Stand}
    (turn : p.turn debug [] = .returns closed q) : p.rest = [] ∧ q = p := by
  unfold Stand.turn at turn
  split at turn
  · rename_i ended
    cases turn
    exact ⟨ended, rfl⟩
  · split at turn
    · rw [if_neg (by simp), if_neg List.not_mem_nil] at turn
      contradiction
    all_goals contradiction

theorem outermostEnds {debug : Bool} {p : Stand} {e : Exit} (loop : Loop debug [] p e) :
    e.stand.rest = [] := by
  generalize outermost : ([] : List Closer) = around at loop
  induction loop with
  | returns turn =>
    subst outermost
    obtain ⟨ended, rfl⟩ := outermostReturns turn
    exact ended
  | on _ _ ih => exact ih outermost
  | calls _ _ _ _ ih => exact ih outermost

/- What is promised of the loops that read a source: each goes on to a later place, within the
source, or leaves a closing marker to a loop that takes it. -/
structure Advancing (debug : Bool) (source : List Char) : Prop where
  marks : ∀ s, s <:+ source → s ≠ [] →
    (Mark.next s).width ≤ s.length ∧ Spans (Mark.next s).width (Mark.next s).meaning
  turns : ∀ around (p : Stand), p.rest <:+ source → (p.turn debug around).Moves debug around p
  -- A body that is read within another is shorter, and behind it the other goes on later
  bodies : ∀ around (p : Stand) inside start resume, p.rest <:+ source →
    p.turn debug around = .calls inside start resume →
      start.rest.length < p.rest.length ∧ ∃ i, Loop debug inside start i ∧
        (∀ j, Loop debug inside start j → j = i) ∧ Later p.rest (resume i.stand i.closed).rest
  attributes : ∀ name props first s, s <:+ source →
    Tag.attributesFrom name props first s = (match Tag.item first s with
      | .ends closed rest => some ⟨name, props, closed, rest⟩
      | .sets key value rest => Tag.attributesFrom name (setProp props key value) false rest
      | .stray => none) ∧ (Tag.item first s).Takes s
  -- the search for a closing tag is made for the name of an opening tag
  search : ∀ t tag, Tag.opening? t = some tag → ∀ depth passed s, s <:+ source →
    Tag.closeFrom tag.name.toList depth passed 0 s =
      (match Tag.look tag.name.toList depth s with
      | .missing => none
      | .found inner width => some (passed + inner, width)
      | .on deeper rest =>
          Tag.closeFrom tag.name.toList deeper (passed + (s.length - rest.length)) 0 rest) ∧
      (Tag.look tag.name.toList depth s).Takes s
  ends : ∀ pos, ∃ e, Loop debug [] ⟨[], [], pos, source⟩ e ∧
    (∀ f, Loop debug [] ⟨[], [], pos, source⟩ f → f = e) ∧ e.stand.rest = [] ∧
      4 * e.depth ≤ source.length ∧ e.turns ≤ 2 * source.length + 1 ∧
        Reading.ofSource debug pos source = ⟨e.stand.current.reverse, e.stand.issues.reverse⟩

theorem loopsAdvance (debug : Bool) (source : List Char) : Advancing debug source where
  marks s _ nonempty := ⟨nextWidth nonempty, nextSpans s⟩
  turns around p _ := Stand.turnMoves debug around p
  bodies around p inside start resume _ turn := by
    have called := Stand.turnMoves debug around p
    rw [turn] at called
    have room := called.room
    obtain ⟨i, loop⟩ := loopEnds debug inside start
    exact ⟨by omega, i, loop, fun j other => loopUnique other loop,
      called.later _ _ (loopFits loop).suffix⟩
  attributes name props first s _ := ⟨Tag.attributesItem name props first s, Tag.itemTakes first s⟩
  search _ tag opened depth passed s _ :=
    ⟨Tag.closeLook (Tag.openingNamed opened) depth passed s, Tag.lookTakes _ depth s⟩
  ends pos := by
    obtain ⟨e, loop⟩ := loopEnds debug [] ⟨[], [], pos, source⟩
    have fits := loopFits loop
    have turns := fits.turns
    have reads : Builder.finish debug (Builder.read debug pos ⟨[], [], []⟩ source) =
        ⟨e.stand.current, [], e.stand.issues⟩ := loopReads loop [] rfl
    refine ⟨e, loop, fun f other => loopUnique other loop, outermostEnds loop, fits.depth, ?_, ?_⟩
    · dsimp only at turns
      omega
    · rw [Reading.ofSource, reads]

end Medley
