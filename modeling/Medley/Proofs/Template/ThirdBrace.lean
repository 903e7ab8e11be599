import Mathlib
import Medley.Proofs.Template.Siblings
import Medley.Proofs.Template.Unclosed

/-! A third brace. The opening marker of a block means the same in two and in three braces, at
every depth; the closing marker closes the block in two braces only. -/
namespace Medley
open Text (spaced Begins Ends)
open Token Mark

def braces (third : Bool) (brace : Char) : List Char :=
  if third then [brace, brace, brace] else [brace, brace]

theorem bracesOther {third : Bool} {brace d : Char} (other : brace ≠ d) :
    ∀ c ∈ braces third brace, c ≠ d := by
  intro c member
  have same : c = brace := by cases third <;> simpa [braces] using member
  exact same ▸ other

namespace Header

def command (loop : Bool) : List Char := if loop then ['e', 'a', 'c', 'h'] else ['i', 'f']

def binder : List (List Char) → String
  | word :: name :: _ => if word = ['a', 's'] then String.ofList name else "item"
  | _ => "item"

def ofWords (loop : Bool) (first : List Char) (more : List (List Char)) : Header :=
  if loop then .each (String.ofList first) (binder more)
  else .cond (String.ofList (spaced first more))

def wordsOpener (third loop : Bool) (first : List Char) (more : List (List Char)) : List Char :=
  braces third '\x7b' ++ ('#' :: (command loop ++ ' ' :: spaced first more) ++ braces third '\x7d')

def wordsEnder (third loop : Bool) : List Char :=
  braces third '\x7b' ++ ('/' :: command loop ++ braces third '\x7d')

theorem ofWordsLoop (loop : Bool) (first : List Char) (more : List (List Char)) :
    (ofWords loop first more).isLoop = loop := by
  cases loop <;> rfl

theorem wordsEnderWritten (loop : Bool) (first : List Char) (more : List (List Char)) :
    wordsEnder false loop = (ofWords loop first more).ender .braces := by
  cases loop <;> rfl

end Header

namespace Mark
variable {first : List Char} {more : List (List Char)}

theorem wordsBegin (named : ∀ w ∈ first :: more, isName w = true) : Begins (spaced first more) := by
  obtain ⟨c, rest, same, unblank⟩ := nameBegins (named first List.mem_cons_self)
  exact ⟨c, _, by rw [spaced, same]; rfl, unblank⟩

theorem wordsEnd (named : ∀ w ∈ first :: more, isName w = true) : Ends (spaced first more) :=
  Text.spacedEnds (nameEnds (named first List.mem_cons_self)) fun w member =>
    nameEnds (named w (List.mem_cons_of_mem first member))

theorem blockHeaderWords (loop : Bool) (named : ∀ w ∈ first :: more, isName w = true) :
    blockHeader? (Header.command loop ++ ' ' :: spaced first more) =
      some (.ofWords loop first more) := by
  have begins := wordsBegin named
  have whole := Text.trimWhole begins (wordsEnd named)
  have start : Text.trimStart (spaced first more) = spaced first more := by
    obtain ⟨c, rest, same, unblank⟩ := begins
    simp [same, Text.trimStart, unblank]
  have full : (spaced first more).isEmpty = false := by
    obtain ⟨c, rest, same, _⟩ := begins
    simp [same]
  have split' : Text.words (spaced first more) = first :: more :=
    Text.wordsSpaced fun w member => ⟨(nameWord (named w member)).1,
      fun c here => ((nameWord (named w member)).2 c here).unblank⟩
  cases loop with
  | false =>
    have cut := Text.cutAtBlanksWord (w := ['i', 'f']) (Text.eachOf rfl) (spaced first more)
    simp only [blockHeader?, Header.command, cut, start, whole, full, ifChars, Bool.false_eq_true,
      if_false, if_true]
    rfl
  | true =>
    have cut := Text.cutAtBlanksWord (w := ['e', 'a', 'c', 'h']) (Text.eachOf rfl)
      (spaced first more)
    have notIf : ['e', 'a', 'c', 'h'] ≠ ['i', 'f'] := by decide
    simp only [blockHeader?, Header.command, cut, start, whole, full, split', ifChars, eachChars,
      asChars, notIf, Bool.false_eq_true, if_false, if_true, Header.ofWords, Option.some.injEq,
      Header.each.injEq, true_and]
    rcases more with _ | ⟨word, _ | ⟨name, more⟩⟩
    · rfl
    · rfl
    · obtain ⟨nonempty, loose⟩ := nameWord (named name (by simp))
      have bars : Text.trimChars (· = '|') name = name :=
        Text.trimCharsNone fun c here => decide_eq_false (loose c here).unbarred
      by_cases named' : word = ['a', 's'] <;> simp [Header.binder, named', bars, nonempty]

theorem wordsTame (named : ∀ w ∈ first :: more, isName w = true) : Tame (spaced first more) :=
  spacedTame (looseTame (nameWord (named first List.mem_cons_self)).2) fun w member =>
    looseTame (nameWord (named w (List.mem_cons_of_mem first member))).2

theorem commandWord (loop : Bool) :
    Begins (Header.command loop) ∧ Tame (Header.command loop) := by
  cases loop
  · exact ⟨⟨'i', ['f'], rfl, rfl⟩, Text.eachOf rfl⟩
  · exact ⟨⟨'e', ['a', 'c', 'h'], rfl, rfl⟩, Text.eachOf rfl⟩

theorem phraseTame (loop : Bool) (named : ∀ w ∈ first :: more, isName w = true) :
    Tame ('#' :: (Header.command loop ++ ' ' :: spaced first more)) := by
  have space := tameAppend (tameOne (c := ' ') (by decide)) (wordsTame named)
  exact tameAppend (tameOne (c := '#') (by decide)) (tameAppend (commandWord loop).2 space)

/- In two braces or in three, it opens the block of its words. -/
theorem readsWordsOpener (third loop : Bool) (named : ∀ w ∈ first :: more, isName w = true)
    (t : List Char) : Reads (Header.wordsOpener third loop first more) t
      (.opens .braces (.ofWords loop first more)) := by
  have tame := phraseTame loop named
  have ends : Ends (Header.command loop ++ ' ' :: spaced first more) := by
    have back := Text.endsAppend (s := Header.command loop ++ [' ']) (wordsEnd named)
    simpa using back
  have begins : Begins (Header.command loop ++ ' ' :: spaced first more) := by
    obtain ⟨c, rest, same, unblank⟩ := (commandWord loop).1
    exact ⟨c, rest ++ ' ' :: spaced first more, by rw [same]; rfl, unblank⟩
  have means : ∀ triple raw, bracesMeaning triple
      ('#' :: (Header.command loop ++ ' ' :: spaced first more)) raw =
        .opens .braces (.ofWords loop first more) := by
    intro triple raw
    have trimmed : Text.trim ('#' :: (Header.command loop ++ ' ' :: spaced first more)) =
        '#' :: (Header.command loop ++ ' ' :: spaced first more) :=
      Text.trimWhole ⟨'#', _, rfl, rfl⟩ (Text.endsAppend (s := ['#']) ends)
    rw [bracesMeaning, trimmed]
    simp only [Text.trimWhole begins ends, blockHeaderWords loop named]
  cases third with
  | false =>
    have mark := readsBraces tame (leadsFirst rfl _) (by decide) (by simp) t
    rw [means] at mark
    exact mark
  | true =>
    have mark := readsTriple tame t
    rw [means] at mark
    exact mark

/- In three braces a closing marker is an output, of a path that begins with a slash. -/
theorem readsThirdEnder (loop : Bool) (t : List Char) :
    Reads (Header.wordsEnder true loop) t (.output false ('/' :: Header.command loop)) := by
  cases loop <;> constructor <;> rfl

inductive BlockTag : Spelling → Header → List Char → Prop where
  | written (spelling) {header} (sound : header.Sound) :
      BlockTag spelling header (header.opener spelling)
  | words (third loop) {first more} (named : ∀ w ∈ first :: more, isName w = true) :
      BlockTag .braces (.ofWords loop first more) (Header.wordsOpener third loop first more)

namespace BlockTag
variable {spelling : Spelling} {header : Header} {v : List Char}

theorem reads (tag : BlockTag spelling header v) (t : List Char) :
    Reads v t (.opens spelling header) := by
  cases tag with
  | written _ sound => exact readsOpener spelling sound t
  | words third loop named => exact readsWordsOpener third loop named t

theorem stops (tag : BlockTag spelling header v) (t : List Char) : Stops (v ++ t) := by
  cases tag with
  | written => exact stopsMarker (Written.beginsOpener ..)
  | words third => cases third <;> exact stopsMarker rfl

theorem passed (tag : BlockTag spelling header v) {name : String} (sound : SoundTag name) :
    Tag.Passed name.toList v := by
  cases tag with
  | written _ header => exact Tag.passedOpener sound spelling header
  | words third loop named =>
    have inside := Tag.tamePlain (phraseTame loop named)
    exact Tag.passedPlain _ (Tag.plainAppend (bracesOther (by decide))
      (Tag.plainAppend inside (bracesOther (by decide))))

end BlockTag

end Mark

/- Siblings and their texts as `Written` has them, but with blocks and elements whose markers may
have a third brace, at any depth. -/
inductive Braced : List (Node Value) → List Char → Prop where
  | written {ns s} (h : Written ns s) : Braced ns s
  | block {before s spelling header v p children body after t} (front : Written before s)
      (tag : BlockTag spelling header v) (inside : Braced children body)
      (rest : Braced after t) :
      Braced (before ++ header.node p children :: after)
        (s ++ (v ++ (body ++ header.ender spelling) ++ t))
  | element {before s p name props children body after t} (front : Written before s)
      (tag : SoundTag name) (sound : SoundProps props) (inside : Braced children body)
      (rest : Braced after t) :
      Braced (before ++ .component p name props children :: after)
        (s ++ (Written.elementStart name props false ++ (body ++ Written.elementEnd name) ++ t))

theorem Braced.passed {name : String} (tag : SoundTag name) {ns : List (Node Value)}
    {s : List Char} (h : Braced ns s) : Tag.Passed name.toList s := by
  induction h with
  | written h => exact Tag.passedWritten tag h
  | @block _ _ spelling header _ _ _ _ _ _ front opens _ _ inside rest =>
    have block := Tag.passedAppend (opens.passed tag)
      (Tag.passedAppend inside (Tag.passedEnder tag spelling header))
    exact Tag.passedAppend (Tag.passedWritten tag front) (Tag.passedAppend block rest)
  | element front tag' sound _ _ inside rest =>
    have element := Tag.passedElement tag tag' sound inside
    exact Tag.passedAppend (Tag.passedWritten tag front) (Tag.passedAppend element rest)

theorem Builder.readBraced {ns : List (Node Value)} {s : List Char} (h : Braced ns s)
    (debug : Bool) (pos : Position) (b : Builder) {t : List Char} (after : Stops t)
    (apart : b.Apart ns) : Adds debug pos b s t ns := by
  induction h generalizing pos b t with
  | written h => exact readWritten h debug pos b after apart
  | @block before s spelling header v p children body more u front tag inside rest ih ih' =>
    refine addsBetween front (headerMarked ..) (fun x => ?_) apart (fun pos b => ?_)
      fun pos b apart => ih' pos b after apart
    · simp only [List.append_assoc]
      exact tag.stops _
    · have ends := stopsMarker (Written.beginsEnder spelling header (u ++ t))
      obtain ⟨ms, same, found⟩ := ih (pos.advance v)
        (b.openBlock spelling header pos (String.ofList v)) ends
        (fun _ _ _ _ absent => absurd absent (by simp [openBlock]))
      refine ⟨[header.node pos ms], ?_, readOpened (tag.reads _) found⟩
      simp only [Node.unplaced.all, Written.headerUnplaced, same]
  | @element before s p name props children body more u front tag sound inside rest ih ih' =>
    refine addsBetween front rfl (fun x => ?_) apart (fun pos b => ?_)
      fun pos b apart => ih' pos b after apart
    · simp only [List.append_assoc]
      exact stopsMarker (Written.beginsElement tag ..)
    · obtain ⟨ms, same, children⟩ := addsAlone
        (ih (pos.advance (Written.elementStart name props false)) ⟨[], [], b.issues⟩ (t := []) rfl
          (fun _ _ _ _ absent => absurd absent (by simp)))
      have passed := inside.passed tag
      refine ⟨[.component pos name props ms], ?_, readElement tag sound passed children⟩
      simp only [Node.unplaced.all, Node.unplaced, same]

theorem readingBraced {ns : List (Node Value)} {s : List Char} (h : Braced ns s) (debug : Bool)
    (pos : Position) : ∃ ms, Node.unplaced.all ms = Node.unplaced.all ns ∧
      Reading.ofSource debug pos s = ⟨ms, []⟩ :=
  Reading.ofAdds (Builder.readBraced h debug pos ⟨[], [], []⟩ (t := []) rfl
    fun _ _ _ _ absent => absurd absent (by simp))

theorem Braced.alone {spelling : Spelling} {header : Header} {v body : List Char}
    {children : List (Node Value)} (inside : Braced children body)
    (tag : BlockTag spelling header v) :
    Braced [header.node .start children] (v ++ (body ++ header.ender spelling)) := by
  have block := Braced.block (p := .start) .nil tag inside (.written .nil)
  simpa using block

theorem readingThirdEnder {spelling : Spelling} {header : Header} {v body : List Char}
    {children : List (Node Value)} (tag : BlockTag spelling header v)
    (inside : Braced children body) (debug : Bool) (pos : Position) :
    (Reading.ofSource debug pos (v ++ (body ++ Header.wordsEnder true header.isLoop))).issues =
      [(⟨spelling, header, pos, String.ofList v, []⟩ : Frame).unclosed] := by
  have closes := readsThirdEnder header.isLoop []
  have stops : Stops (Header.wordsEnder true header.isLoop) := by
    cases header.isLoop <;> exact stopsMarker rfl
  generalize Header.wordsEnder true header.isLoop = w at closes stops
  have opens := tag.reads (body ++ w)
  obtain ⟨ms, _, found⟩ := Builder.readBraced inside debug (pos.advance v)
    (Builder.openBlock ⟨[], [], []⟩ spelling header pos (String.ofList v)) stops
    (fun _ _ _ _ absent => absurd absent (by simp [Builder.openBlock]))
  have last := Builder.readMark debug ((pos.advance v).advance body)
    ((Builder.openBlock ⟨[], [], []⟩ spelling header pos (String.ofList v)).grown ms) closes
    closes.some
  rw [List.append_nil, Builder.readNil] at last
  unfold Reading.ofSource
  rw [Builder.readMark debug pos _ opens opens.some, Builder.take, found, last]
  rfl

namespace Template

/-- A block of words is read the same with two braces and with three on its opening marker and on
those inside it. Closed in three braces, it is not closed. -/
theorem thirdBraceOpens (o : ReadOptions) (loop : Bool) {first : List Char}
    {more : List (List Char)} (named : ∀ w ∈ first :: more, isName w = true)
    {children : List (Node Value)} {body body' : List Char} (inside : Braced children body)
    (inside' : Braced children body') (third third' : Bool) :
    (∃ out out',
      read o (String.ofList (Header.wordsOpener third loop first more ++
        (body ++ Header.wordsEnder false loop))) = .ok out ∧
      read o (String.ofList (Header.wordsOpener third' loop first more ++
        (body' ++ Header.wordsEnder false loop))) = .ok out' ∧
      out.issues = [] ∧ out'.issues = [] ∧
      Node.unplaced.all out.template.nodes = Node.unplaced.all out'.template.nodes ∧
      Node.unplaced.all out.template.nodes =
        [(Header.ofWords loop first more).node .start (Node.unplaced.all children)]) ∧
    ∃ out, read o (String.ofList (Header.wordsOpener third loop first more ++
        (body ++ Header.wordsEnder true loop))) = .ok out ∧
      out.issues = [⟨.unclosedBlock, "Unclosed " ++ (⟨loop, .braces⟩ : Closer).label ++ " block",
        ⟨1 + o.lineOffset, o.columnOffset⟩,
        String.ofList (Header.wordsOpener third loop first more)⟩] := by
  let p : Position := ⟨1 + o.lineOffset + (0 : Nat), o.columnOffset⟩
  have noData : ∀ third t, Frontmatter.split (Header.wordsOpener third loop first more ++ t) =
    none := fun third _ => by cases third <;> rfl
  have closed : ∀ third body, Braced children body → ∃ ms,
      Node.unplaced.all ms =
        [(Header.ofWords loop first more).node .start (Node.unplaced.all children)] ∧
      Reading.ofSource o.debug p (Header.wordsOpener third loop first more ++
        (body ++ Header.wordsEnder false loop)) = ⟨ms, []⟩ := by
    intro third body inside
    rw [Header.wordsEnderWritten loop first more]
    obtain ⟨ms, same, reading⟩ :=
      readingBraced (inside.alone (.words third loop named)) o.debug p
    exact ⟨ms, same.trans (by simp only [Node.unplaced.all, Written.headerUnplaced]), reading⟩
  obtain ⟨ms, same, reading⟩ := closed third body inside
  obtain ⟨ms', same', reading'⟩ := closed third' body' inside'
  have torn := readingThirdEnder (.words third loop named) inside o.debug p
  rw [Header.ofWordsLoop] at torn
  refine ⟨⟨_, _, readBody o fun _ => noData third _, readBody o fun _ => noData third' _,
    ?_, ?_, ?_, ?_⟩, _, readBody o fun _ => noData third _, ?_⟩
  all_goals simp only [assemble]
  · rw [reading]
  · rw [reading']
  · rw [reading, reading', same, same']
  · rw [reading, same]
  · rw [torn]
    simp [Frame.unclosed, Frame.closer, Header.ofWordsLoop, p]

theorem loopWords : ∀ w ∈ [['x', 's'], ['a', 's'], ['x']], isName w = true := by decide

theorem conditionWords : ∀ w ∈ [['a'], ['b']], isName w = true := by decide

theorem letterWritten : Written [.text .start "y"] ['y'] :=
  .text (by decide) (Text.eachOf rfl) nofun .nil

theorem conditionBraced (third : Bool) : Braced [.cond .start "a b" [.text .start "y"]]
    (Header.wordsOpener third false ['a'] [['b']] ++ (['y'] ++ Header.wordsEnder false false)) :=
  (Braced.written letterWritten).alone (.words third false conditionWords)

def stackedTriple : String := String.ofList
  ("\x7b\x7b\x7b#each xs as x\x7d\x7d\x7d\x7b\x7b\x7b#if a b\x7d\x7d\x7d".toList ++
    "y\x7b\x7b/if\x7d\x7d\x7b\x7b/each\x7d\x7d".toList)

def stackedDouble : String :=
  "\x7b\x7b#each xs as x\x7d\x7d\x7b\x7b#if a b\x7d\x7dy\x7b\x7b/if\x7d\x7d\x7b\x7b/each\x7d\x7d"

theorem thirdBraceOpensStacked :
    (∀ w ∈ [['x', 's'], ['a', 's'], ['x']], isName w = true) ∧ ∃ out out',
      read {} stackedTriple = .ok out ∧ read {} stackedDouble = .ok out' ∧
      out.issues = [] ∧ out'.issues = [] ∧
      Node.unplaced.all out.template.nodes = Node.unplaced.all out'.template.nodes ∧
      Node.unplaced.all out.template.nodes =
        [.each .start "xs" "x" [.cond .start "a b" [.text .start "y"]]] :=
  ⟨loopWords, (thirdBraceOpens {} true loopWords (conditionBraced true) (conditionBraced false)
    true false).1⟩

def tripleBlock : String := "\x7b\x7b\x7b#if x\x7d\x7d\x7dy\x7b\x7b\x7b/if\x7d\x7d\x7d"

def tripleNodes : List (Node Value) :=
  [.text .start "\x7b\x7b\x7b#if x\x7d\x7d\x7dy", .lookup ⟨1, 12⟩ "/if" false []]

theorem readTripleBlock : read {} tripleBlock =
    .ok ⟨⟨tripleNodes, Metadata.of tripleNodes [] none, none, none⟩, [⟨.unclosedBlock,
      "Unclosed \x7b\x7b#if\x7d\x7d block", .start, "\x7b\x7b\x7b#if x\x7d\x7d\x7d"⟩]⟩ := by cbv

/- With a third brace on the closing marker as well, the block is not read as with two. -/
theorem thirdBraceLeavesOpen : ¬∀ (loop : Bool) (first : List Char) (more : List (List Char))
    (children : List (Node Value)) (body : List Char), (∀ w ∈ first :: more, isName w = true) →
    Written children body → ∃ out out',
      read {} (String.ofList (Header.wordsOpener true loop first more ++
        (body ++ Header.wordsEnder true loop))) = .ok out ∧
      read {} (String.ofList (Header.wordsOpener false loop first more ++
        (body ++ Header.wordsEnder false loop))) = .ok out' ∧
      out.issues = [] ∧
      Node.unplaced.all out.template.nodes = Node.unplaced.all out'.template.nodes := by
  intro all
  have named : ∀ w ∈ [['x']], isName w = true := by decide
  obtain ⟨out, _, found, _, absent, _⟩ := all false ['x'] [] _ _ named letterWritten
  cases readTripleBlock.symm.trans found
  contradiction

end Template
end Medley
