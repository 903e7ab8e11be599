import Medley.Proofs.Template.Openings

/-! Blocks that are never closed. Such a block does not keep the blocks around it from closing: at
the closing marker of a block around it, it leaves its opening marker as it stands and its children
among its siblings, as it does at the end of the source. So what stands in a block is read as it is
by itself, whatever is left open in it. -/
namespace Medley
open Mark

namespace Node
variable {α : Type}

theorem unplacedPush (ns : List (Node α)) (n : Node α) :
    unplaced.all (push ns n) = push (unplaced.all ns) n.unplaced := by
  cases n with
  | text p content =>
    cases ns with
    | nil =>
      by_cases empty : content.isEmpty = true <;> simp [push, unplaced.all, unplaced, empty]
    | cons m ns =>
      by_cases empty : content.isEmpty = true <;> cases m <;>
        simp [push, unplaced.all, unplaced, empty]
  | _ => cases ns <;> simp [push, unplaced.all, unplaced]

theorem unplacedPushAll (ns ms : List (Node α)) :
    unplaced.all (pushAll ns ms) = pushAll (unplaced.all ns) (unplaced.all ms) := by
  induction ms generalizing ns with
  | nil => rfl
  | cons m ms ih =>
    have rest := ih (push ns m)
    rw [unplacedPush] at rest
    exact rest

theorem unplacedReverse (ns : List (Node α)) :
    unplaced.all ns.reverse = (unplaced.all ns).reverse := by
  simp [unplacedMap]

theorem pushJoined (siblings : List (Node α)) (p q : Position) {a : String} (nonempty : a ≠ "")
    (b : String) :
    push (push siblings (.text p a)) (.text q b) = push siblings (.text p (a ++ b)) := by
  by_cases empty : b = ""
  · rw [empty, pushEmpty, String.append_empty]
  · cases siblings with
    | nil => simp [push, nonempty, empty]
    | cons n siblings => cases n <;> simp [push, nonempty, empty, String.append_assoc]

end Node

namespace Builder
open Written
variable {debug : Bool} {pos : Position} {b c d : Builder} {v w t : List Char}

/- Reading `w`, with `t` behind it, makes of the tree `b` the tree `c`. -/
def Runs (debug : Bool) (pos : Position) (b : Builder) (w t : List Char) (c : Builder) : Prop :=
  read debug pos b (w ++ t) = read debug (pos.advance w) c t

theorem Runs.append (first : Runs debug pos b v (w ++ t) c)
    (second : Runs debug (pos.advance v) c w t d) : Runs debug pos b (v ++ w) t d := by
  rw [Runs, List.append_assoc, first, second, Position.advance_append]

theorem runsText (debug : Bool) (pos : Position) (b : Builder) (t : List Char)
    (plain : ∀ c ∈ w, c ≠ '\x7b' ∧ c ≠ '<') (nonempty : w ≠ []) :
    Runs debug pos b w t (b.push (.text pos (String.ofList w))) := by
  have width := textWidthPlain plain t
  by_cases stops : Stops t
  · exact readMark debug pos b (readsText nonempty plain stops) nonempty
  · -- the text goes on behind `w`, and what is read in one is joined when it is read in two
    have after : t ≠ [] := by
      rintro rfl
      exact stops rfl
    have whole : w ++ t ≠ [] := by simp [nonempty]
    have wide : ¬ textWidth (w ++ t) = 0 := by
      rw [width]
      exact fun zero => nonempty (List.length_eq_zero_iff.mp (Nat.add_eq_zero_iff.mp zero).1)
    have front : (w ++ t).take (textWidth (w ++ t)) = w ++ t.take (textWidth t) := by
      rw [width, List.take_length_add_append]
    have back : (w ++ t).drop (textWidth (w ++ t)) = t.drop (textWidth t) := by
      rw [width, List.drop_length_add_append]
    have stops' : ¬ textWidth t = 0 := stops
    rw [Runs, readCons debug pos b whole, readCons debug _ _ after, next, dif_neg wide, next,
      dif_neg stops']
    simp only [Mark.raw, Mark.rest, front, back, take, push, Position.advance_append]
    rw [Node.pushJoined _ _ _ (by simpa using nonempty), String.ofList_append]

theorem runsOpening (debug : Bool) (pos : Position) (b : Builder) (t : List Char)
    {spelling : Spelling} {header : Header} (opening : Opening spelling header w) :
    Runs debug pos b w t (b.openBlock spelling header pos (String.ofList w)) :=
  readMark debug pos b (opening.reads t) opening.some'

theorem runsWritten (debug : Bool) (pos : Position) (b : Builder) (t : List Char)
    {n : Node Value} (h : Written [n] w) (marked : n.isText = false) :
    ∃ m, m.unplaced = n.unplaced ∧ Runs debug pos b w t (b.grown [m]) := by
  generalize siblings : [n] = ns at h
  cases h with
  | nil => contradiction
  | text =>
    cases siblings
    contradiction
  | @lookup p path escape filters _ _ spelling name calls rest =>
    cases siblings
    cases rest
    rw [List.append_nil]
    exact ⟨.lookup pos path escape filters, rfl,
      readLookup debug pos b spelling escape name calls t⟩
  | @call p name args escape filters _ _ spelling sound nonempty arguments calls rest =>
    cases siblings
    cases rest
    rw [List.append_nil]
    exact ⟨.call pos name args escape filters, rfl,
      readCall debug pos b spelling escape sound nonempty arguments calls t⟩
  | @block p children body _ _ spelling header sound inside rest =>
    cases siblings
    cases rest
    rw [List.append_nil]
    obtain ⟨ms, same, found⟩ := readWritten inside debug (pos.advance (header.opener spelling))
      (b.openBlock spelling header pos (String.ofList (header.opener spelling)))
      (stopsMarker (beginsEnder spelling header t))
      (fun _ _ _ _ absent => absurd absent (by simp [openBlock]))
    refine ⟨header.node pos ms, ?_, readBlock sound found⟩
    rw [headerUnplaced, headerUnplaced, same]
  | @element p name props children body _ _ tag sound inside rest =>
    cases siblings
    cases rest
    rw [List.append_nil]
    obtain ⟨ms, same, found⟩ := addsAlone (readWritten inside debug
      (pos.advance (elementStart name props false)) ⟨[], [], b.issues⟩ (t := []) rfl
      (fun _ _ _ _ absent => absurd absent (by simp)))
    refine ⟨.component pos name props ms, ?_,
      readElement tag sound (Tag.passedWritten tag inside) found⟩
    rw [Node.unplaced, Node.unplaced, same]
  | @closed p name props _ _ tag sound rest =>
    cases siblings
    cases rest
    rw [List.append_nil]
    exact ⟨.component pos name props [], rfl, readClosed debug pos b tag sound t⟩
  | @embed p name props _ _ sound entries rest =>
    cases siblings
    cases rest
    rw [List.append_nil]
    exact ⟨.embed pos name props, rfl, readEmbed debug pos b sound entries t⟩

end Builder

def Frame.unplaced (f : Frame) : Frame :=
  { f with pos := .start, before := Node.unplaced.all f.before }

namespace Builder
open Written

variable {debug : Bool} {pos : Position} {b b' : Builder} {outer : List Frame} {k : Closer}

/-- The same tree is being built, in the second builder with more blocks around it; `k` closes none
of the blocks that they have in common. -/
structure Within (k : Closer) (outer : List Frame) (b b' : Builder) : Prop where
  current : Node.unplaced.all b.current = Node.unplaced.all b'.current
  frames : ∃ inner, b'.frames = inner ++ outer ∧
    b.frames.map Frame.unplaced = inner.map Frame.unplaced ∧ ∀ f ∈ inner, f.closer ≠ k

theorem Within.push (within : Within k outer b b') {m n : Node Value}
    (same : m.unplaced = n.unplaced) : Within k outer (b.push m) (b'.push n) where
  current := by
    rw [Builder.push, Builder.push, Node.unplacedPush, Node.unplacedPush, within.current, same]
  frames := within.frames

theorem Within.grown (within : Within k outer b b') {m n : Node Value}
    (same : m.unplaced = n.unplaced) : Within k outer (b.grown [m]) (b'.grown [n]) where
  current := by
    have one : ∀ c : Builder, ∀ l : Node Value, Node.unplaced.all (c.grown [l]).current =
        l.unplaced :: Node.unplaced.all c.current := fun _ _ => rfl
    rw [one, one, within.current, same]
  frames := within.frames

theorem Within.openBlock (within : Within k outer b b') {spelling : Spelling} {header : Header}
    (other : ⟨header.isLoop, spelling⟩ ≠ k) (p q : Position) (raw : String) :
    Within k outer (b.openBlock spelling header p raw) (b'.openBlock spelling header q raw) where
  current := rfl
  frames := by
    obtain ⟨inner, same, alike, apart⟩ := within.frames
    refine ⟨⟨spelling, header, q, raw, b'.current⟩ :: inner, ?_, ?_, fun f member => ?_⟩
    · rw [Builder.openBlock, same]
      rfl
    · simp [Builder.openBlock, alike, Frame.unplaced, within.current]
    · rcases List.mem_cons.mp member with rfl | member
      · exact other
      · exact apart f member

end Builder

/- Texts, written nodes and opening markers of blocks that are left open, of which `k` closes
none. -/
inductive Torn (k : Closer) : List Char → Prop where
  | nil : Torn k []
  | text {v w} (plain : ∀ c ∈ v, c ≠ '\x7b' ∧ c ≠ '<') (rest : Torn k w) : Torn k (v ++ w)
  | node {n v w} (written : Written [n] v) (marked : n.isText = false) (rest : Torn k w) :
      Torn k (v ++ w)
  | opening {spelling header v w} (opens : Opening spelling header v)
      (other : ⟨header.isLoop, spelling⟩ ≠ k) (rest : Torn k w) : Torn k (v ++ w)

namespace Builder
open Written

variable {b b' : Builder} {outer : List Frame} {k : Closer} {w : List Char}

theorem tornRuns (debug : Bool) (torn : Torn k w) (within : Within k outer b b') (p q : Position)
    (t u : List Char) :
    ∃ c c', Runs debug p b w t c ∧ Runs debug q b' w u c' ∧ Within k outer c c' := by
  induction torn generalizing b b' p q with
  | nil => exact ⟨b, b', rfl, rfl, within⟩
  | @text v w plain rest ih =>
    by_cases empty : v = []
    · subst empty
      exact ih within p q
    · obtain ⟨c, c', first, second, after⟩ := ih
        (within.push (m := .text p (String.ofList v)) (n := .text q (String.ofList v)) rfl)
        (p.advance v) (q.advance v)
      exact ⟨c, c', (runsText debug p b _ plain empty).append first,
        (runsText debug q b' _ plain empty).append second, after⟩
  | @node n v w written marked rest ih =>
    obtain ⟨m, same, here⟩ := runsWritten debug p b (w ++ t) written marked
    obtain ⟨m', same', here'⟩ := runsWritten debug q b' (w ++ u) written marked
    obtain ⟨c, c', first, second, after⟩ := ih (within.grown (same.trans same'.symm))
      (p.advance v) (q.advance v)
    exact ⟨c, c', here.append first, here'.append second, after⟩
  | @opening spelling header v w opens other rest ih =>
    obtain ⟨c, c', first, second, after⟩ := ih (within.openBlock other p q (String.ofList v))
      (p.advance v) (q.advance v)
    exact ⟨c, c', (runsOpening debug p b _ opens).append first,
      (runsOpening debug q b' _ opens).append second, after⟩

/- The siblings that unclosed blocks leave, the innermost first. -/
def spilled (debug : Bool) (current : List (Node Value)) (frames : List Frame) :
    List (Node Value) :=
  frames.foldl (fun current f => spill debug f current) current

theorem finishSpilled (debug : Bool) (current : List (Node Value)) (issues : List Issue)
    (frames : List Frame) :
    (finishFrom debug current issues frames).current = spilled debug current frames := by
  induction frames generalizing current issues with
  | nil => rfl
  | cons f frames ih => exact ih _ _

theorem closeSpilled (debug : Bool) (current : List (Node Value)) (issues : List Issue)
    (outer : List Frame) {inner : List Frame} (apart : ∀ f ∈ inner, f.closer ≠ k) {f : Frame}
    (fits : f.closer = k) :
    ∃ issues', closeFrom debug k current issues (inner ++ f :: outer) =
      ⟨Node.push f.before (f.node (spilled debug current inner).reverse), outer, issues'⟩ := by
  induction inner generalizing current issues with
  | nil => exact ⟨issues, by rw [List.nil_append, closeFrom, if_pos fits]; rfl⟩
  | cons g inner ih =>
    obtain ⟨issues', closed⟩ := ih (spill debug g current) (g.unclosed :: issues)
      fun h member => apart h (List.mem_cons_of_mem g member)
    refine ⟨issues', ?_⟩
    rw [List.cons_append, closeFrom, if_neg (apart g List.mem_cons_self), closed]
    rfl

theorem spilledUnplaced (debug : Bool) (current : List (Node Value)) (frames : List Frame) :
    Node.unplaced.all (spilled debug current frames) =
      spilled debug (Node.unplaced.all current) (frames.map Frame.unplaced) := by
  induction frames generalizing current with
  | nil => rfl
  | cons f frames ih =>
    have marker : (f.unclosed.node debug).unplaced = f.unplaced.unclosed.node debug := by
      cases debug <;> rfl
    have one : Node.unplaced.all (spill debug f current) =
        spill debug f.unplaced (Node.unplaced.all current) := by
      rw [spill, Node.unplacedPushAll, Node.unplacedPush, Node.unplacedReverse, marker]
      rfl
    have rest := ih (spill debug f current)
    rw [one] at rest
    exact rest

theorem readsEnderBehind (debug : Bool) {c : Builder} {inner : List Frame} {spelling : Spelling}
    {header : Header} {f : Frame} (fits : f.closer = ⟨header.isLoop, spelling⟩)
    (frames : c.frames = inner ++ [f])
    (apart : ∀ g ∈ inner, g.closer ≠ ⟨header.isLoop, spelling⟩) (pos : Position) : ∃ issues,
      read debug pos c (header.ender spelling) =
        ⟨Node.push f.before (f.node (spilled debug c.current inner).reverse), [], issues⟩ := by
  have nonempty : header.ender spelling ≠ [] := by
    cases spelling <;> cases header <;> simp [Header.ender]
  obtain ⟨issues, closed⟩ := closeSpilled debug c.current c.issues [] apart fits
  have known : (c.frames.any fun g => decide (g.closer = ⟨header.isLoop, spelling⟩)) = true := by
    simp [frames, fits]
  have one := readMark debug pos c (readsEnder spelling header []) nonempty
  rw [List.append_nil, readNil] at one
  refine ⟨issues, ?_⟩
  rw [one, take, close?]
  dsimp only [bind, Option.bind]
  rw [if_pos known, frames, closed]
  rfl

end Builder

/- What stands in a block, whatever is left open in it, is what it is by itself. -/
theorem readingTorn {spelling : Spelling} {header : Header} {v w : List Char}
    (opens : Opening spelling header v) (torn : Torn ⟨header.isLoop, spelling⟩ w) (debug : Bool)
    (p q : Position) : ∃ children issues,
      Reading.ofSource debug p (v ++ (w ++ header.ender spelling)) =
        ⟨[header.node p children], issues⟩ ∧
      Node.unplaced.all children = Node.unplaced.all (Reading.ofSource debug q w).nodes := by
  generalize block : (⟨spelling, header, p, String.ofList v, []⟩ : Frame) = f
  have fits : f.closer = ⟨header.isLoop, spelling⟩ := by rw [← block]; rfl
  have before : f.before = [] := by rw [← block]
  have node : ∀ children, f.node children = header.node p children := by
    rw [← block]
    cases header <;> exact fun _ => rfl
  have within : Builder.Within ⟨header.isLoop, spelling⟩ [f] ⟨[], [], []⟩ ⟨[], [f], []⟩ :=
    ⟨rfl, [], rfl, rfl, by simp⟩
  obtain ⟨c, c', alone, enclosed, after⟩ := Builder.tornRuns debug torn within q
    (p.advance v) [] (header.ender spelling)
  obtain ⟨inner, frames, alike, apart⟩ := after.frames
  obtain ⟨issues, closed⟩ := Builder.readsEnderBehind debug fits frames apart
    ((p.advance v).advance w)
  refine ⟨(Builder.spilled debug c'.current inner).reverse, issues.reverse, ?_, ?_⟩
  · have opened :
        Builder.Runs debug p ⟨[], [], []⟩ v (w ++ header.ender spelling) ⟨[], [f], []⟩ := by
      have first := Builder.runsOpening debug p ⟨[], [], []⟩ (w ++ header.ender spelling) opens
      rw [Builder.openBlock, block] at first
      exact first
    have pushed := Builder.pushMarked (Builder.headerMarked header p
      (Builder.spilled debug c'.current inner).reverse) []
    rw [before, node, pushed] at closed
    rw [Reading.ofSource, opened, enclosed, closed]
    rfl
  · have whole : Builder.read debug q ⟨[], [], []⟩ w = c := by
      have read := alone
      rw [Builder.Runs, List.append_nil, Builder.readNil] at read
      exact read
    rw [Reading.ofSource, whole]
    dsimp only
    rw [Node.unplacedReverse, Node.unplacedReverse, Builder.finish, Builder.finishSpilled,
      Builder.spilledUnplaced, Builder.spilledUnplaced, after.current, alike]

theorem Mark.Opening.noData {spelling : Spelling} {header : Header} {v : List Char}
    (opens : Opening spelling header v) (t : List Char) : Frontmatter.split (v ++ t) = none := by
  cases opens <;> rfl

namespace Template

theorem readBody (o : ReadOptions) {s : List Char}
    (body : o.frontmatter = true → Frontmatter.split s = none) :
    read o (String.ofList s) = .ok (assemble o [] 0 s) := by
  have whole : (if o.frontmatter then Frontmatter.split s else none) = none := by
    split
    · exact body ‹_›
    · rfl
  simp only [read, String.toList_ofList, whole]
  rfl

/- Between an opening and a closing marker stands one block, and its children are what is read of
the text between them alone, without page data, whatever blocks are left open in that text. -/
theorem blockCloses (o : ReadOptions) {spelling : Spelling} {header : Header} {v w : List Char}
    (opens : Opening spelling header v) (torn : Torn ⟨header.isLoop, spelling⟩ w) :
    ∃ out alone p children,
      read o (String.ofList (v ++ (w ++ header.ender spelling))) = .ok out ∧
      read { o with frontmatter := false } (String.ofList w) = .ok alone ∧
      ((o.frontmatter = true → Frontmatter.split w = none) →
        read o (String.ofList w) = .ok alone) ∧
      out.template.nodes = [header.node p children] ∧
      Node.unplaced.all children = Node.unplaced.all alone.template.nodes := by
  let p : Position := ⟨1 + o.lineOffset + (0 : Nat), o.columnOffset⟩
  obtain ⟨children, issues, found, same⟩ := readingTorn opens torn o.debug p p
  refine ⟨assemble o [] 0 _, assemble o [] 0 w, p, children,
    readBody o fun _ => opens.noData _, readBody { o with frontmatter := false } (by simp),
    readBody o, ?_, ?_⟩
  · simp only [assemble]
    rw [found]
  · simp only [assemble]
    exact same

theorem opensEach : Opening .braces (.each "xs" "item") "\x7b\x7b#each xs\x7d\x7d".toList :=
  @Opening.braces (.each "xs" "item") "#each xs".toList (by decide) fun _ => rfl

theorem opensIf : Opening .braces (.cond "c == 1") "\x7b\x7b#if c == 1\x7d\x7d".toList :=
  @Opening.braces (.cond "c == 1") "#if c == 1".toList (by decide) fun _ => rfl

theorem opensFor : Opening .percent (.each "t" "x") "<% for x in t %>".toList :=
  @Opening.percent (.each "t" "x") " for x in t ".toList (by decide) fun _ => rfl

def leftOpen : String := "\x7b\x7b#if c == 1\x7d\x7d<% for x in t %><%= y %>z"

theorem tornLeftOpen : Torn ⟨true, .braces⟩ leftOpen.toList := by
  have output : Written [.lookup .start "y" true []] ("<%= y %>".toList ++ []) :=
    .lookup .percent (by decide) (by simp) .nil
  rw [List.append_nil] at output
  have text : Torn ⟨true, .braces⟩ (['z'] ++ []) := .text (Text.eachOf rfl) .nil
  have whole := Torn.opening opensIf (by decide) (.opening opensFor (by decide)
    (.node output rfl text))
  simpa [leftOpen] using whole

theorem loopCloses : ∃ out alone p children,
    read {} (String.ofList ("\x7b\x7b#each xs\x7d\x7d".toList ++
      (leftOpen.toList ++ "\x7b\x7b/each\x7d\x7d".toList))) = .ok out ∧
    read { frontmatter := false } (String.ofList leftOpen.toList) = .ok alone ∧
    ((true = true → Frontmatter.split leftOpen.toList = none) →
      read {} (String.ofList leftOpen.toList) = .ok alone) ∧
    out.template.nodes = [.each p "xs" "item" children] ∧
    Node.unplaced.all children = Node.unplaced.all alone.template.nodes :=
  blockCloses {} opensEach tornLeftOpen

theorem textReading {w : List Char} (plain : ∀ c ∈ w, c ≠ '\x7b' ∧ c ≠ '<') (nonempty : w ≠ [])
    (debug : Bool) (pos : Position) : Node.unplaced.all (Reading.ofSource debug pos w).nodes =
      [.text .start (String.ofList w)] := by
  have written : Written [.text .start (String.ofList w)] ((String.ofList w).toList ++ []) :=
    .text (by simpa using nonempty) (by simpa using plain) (by simp) .nil
  rw [List.append_nil, String.toList_ofList] at written
  obtain ⟨ms, same, found⟩ := readingWritten written debug pos
  rw [found]
  exact same

/- What would be page data at the front of a source is text in a block. -/
theorem dataInBlock : ¬ ∀ (spelling : Spelling) (header : Header) (v w : List Char),
    Opening spelling header v → Torn ⟨header.isLoop, spelling⟩ w →
    ∃ out alone p children,
      read {} (String.ofList (v ++ (w ++ header.ender spelling))) = .ok out ∧
      read {} (String.ofList w) = .ok alone ∧ out.template.nodes = [header.node p children] ∧
      Node.unplaced.all children = Node.unplaced.all alone.template.nodes := by
  intro every
  have torn : Torn ⟨true, .braces⟩ ("---\n---\nx".toList ++ []) := .text (Text.eachOf rfl) .nil
  rw [List.append_nil] at torn
  obtain ⟨out, alone, p, children, found, found', nodes, same⟩ :=
    every .braces _ _ _ opensEach torn
  obtain ⟨children', issues, reading, inside⟩ := readingTorn opensEach torn false ⟨1, 0⟩ ⟨1, 0⟩
  have body := readBody {} (fun _ => opensEach.noData
    ("---\n---\nx".toList ++ (Header.each "xs" "item").ender .braces))
  rw [body] at found
  cases found
  have block : (assemble {} [] 0 ("\x7b\x7b#each xs\x7d\x7d".toList ++ ("---\n---\nx".toList ++
      (Header.each "xs" "item").ender .braces))).template.nodes =
        [.each ⟨1, 0⟩ "xs" "item" children'] :=
    congrArg Reading.nodes reading
  rw [block] at nodes
  cases nodes
  have data : read {} (String.ofList "---\n---\nx".toList) =
      .ok (assemble {} [] 2 ['x']) := by
    have split : Frontmatter.split "---\n---\nx".toList = some ⟨[], ['x'], 2⟩ := rfl
    unfold read
    rw [String.toList_ofList]
    dsimp only
    rw [if_pos rfl, split]
    rfl
  rw [data] at found'
  cases found'
  have first := textReading (w := "---\n---\nx".toList) (Text.eachOf rfl) (by decide) false ⟨1, 0⟩
  have second := textReading (w := ['x']) (Text.eachOf rfl) (by decide) false
    ⟨1 + (0 : Int) + (2 : Nat), 0⟩
  have other : Node.unplaced.all (assemble {} [] 2 ['x']).template.nodes =
      [.text .start (String.ofList ['x'])] := second
  rw [inside, first, other] at same
  exact absurd same (by simp)

end Template

end Medley
