import Mathlib.Data.List.Infix
import Medley.Proofs.Template.Siblings

/-! Comments between siblings. A comment ends at its first closing marker, whatever stands in it,
and leaves nothing in the tree; so a written tree is read the same with a comment between two of
its nodes. The end of an element is searched before its inside is read, in comments as well: inside
an element a comment is passed over where no tag of that element's name opens or closes in it. -/
namespace Medley
open Text

namespace Mark

def noteEnd : List Char := ['-', '-', '\x7d', '\x7d']

def note (c : List Char) : List Char :=
  '\x7b' :: '\x7b' :: '!' :: '-' :: '-' :: ((' ' :: c ++ [' ']) ++ noteEnd)

theorem cutFirst {piece s : List Char} (nonempty : piece ≠ []) {t : List Char}
    (first : ∀ back, back <:+ s → back ≠ [] → ¬ piece <+: back ++ (piece ++ t)) :
    cut piece (s ++ (piece ++ t)) = some (s, t) := by
  induction s with
  | nil =>
    cases piece with
    | nil => exact absurd rfl nonempty
    | cons p piece => simp [cut]
  | cons c s ih =>
    have here := first (c :: s) (List.suffix_refl _) (List.cons_ne_nil _ _)
    have rest := ih fun back suffix => first back (suffix.trans (List.suffix_cons c s))
    rw [List.cons_append, cut, if_neg (by simpa using here), rest]
    rfl

theorem cutNote {c : List Char} (inside : ¬ noteEnd <:+: c) (t : List Char) :
    cut noteEnd ((' ' :: c ++ [' ']) ++ (noteEnd ++ t)) = some (' ' :: c ++ [' '], t) := by
  have whole' : (' ' :: c ++ [' ']).getLast? = some ' ' := List.getLast?_concat ..
  -- an earlier end would lie in the text, or reach over the blank behind it; an end has no blank
  refine cutFirst (by decide) fun back suffix nonempty front => ?_
  have within : back <+: back ++ (noteEnd ++ t) := List.prefix_append ..
  rcases Nat.le_total noteEnd.length back.length with long | short
  · have whole := (List.prefix_of_prefix_length_le front within long).isInfix.trans suffix.isInfix
    rcases List.infix_concat_iff.mp whole with last | whole
    · obtain ⟨before, same⟩ := last
      have ends := congrArg List.getLast? same
      rw [List.getLast?_concat, List.getLast?_append_of_ne_nil _ (by decide)] at ends
      exact absurd ends (by decide)
    · rcases List.infix_cons_iff.mp whole with start | whole
      · obtain ⟨after, same⟩ := start
        simp [noteEnd] at same
      · exact inside whole
  · have part := List.prefix_of_prefix_length_le within front short
    have last : ' ' ∈ back := by
      obtain ⟨before, same⟩ := suffix
      have ends := congrArg List.getLast? same
      rw [List.getLast?_append_of_ne_nil _ nonempty] at ends
      exact List.mem_of_getLast? (ends.trans whole')
    exact absurd (part.subset last) (by decide)

theorem beginsNote (c t : List Char) : begins (note c ++ t) = true := rfl

theorem readsNote {c : List Char} (inside : ¬ noteEnd <:+: c) (t : List Char) :
    Reads (note c) t .comment := by
  have shape : note c ++ t = '\x7b' :: '\x7b' :: '!' :: '-' :: '-' ::
      ((' ' :: c ++ [' ']) ++ (noteEnd ++ t)) := by simp [note]
  have first : ∀ r, trimStart ('!' :: r) = '!' :: r := fun _ => rfl
  have mark : next (note c ++ t) = bracesComment ((' ' :: c ++ [' ']) ++ (noteEnd ++ t)) := by
    rw [nextMarker (beginsNote c t), shape]
    unfold marker
    rw [closingBracesNone (first _) (by decide)]
    rfl
  have found : cut ['-', '-', '\x7d', '\x7d'] ((' ' :: c ++ [' ']) ++ (noteEnd ++ t)) = _ :=
    cutNote inside t
  rw [bracesComment, found] at mark
  constructor
  · rw [mark]
    simp [note, noteEnd]
  · rw [mark]

end Mark

namespace Tag

def Free (name c : List Char) : Prop := ∀ t, t <:+ c →
  opensSame name (t ++ [' ']) = false ∧ closingWidth? name t = none

theorem dropStartUpTo {x : Char} {start : List Char} (apart : x ∉ start) (t more : List Char) :
    dropStart? start (t ++ x :: more) = (dropStart? start t).map (· ++ x :: more) := by
  induction start generalizing t with
  | nil => simp [dropStart?]
  | cons c start ih =>
    rw [List.mem_cons, not_or] at apart
    cases t with
    | nil => rw [List.nil_append, dropStartOther (Ne.symm apart.1)]; rfl
    | cons d t =>
      by_cases same : c = d
      · rw [same, List.cons_append, dropStartCons, dropStartCons, ih apart.2]
      · rw [List.cons_append, dropStartOther same, dropStartOther same]
        rfl

section
variable {name : List Char} (blankless : ' ' ∉ name)
include blankless

theorem opensBefore {t : List Char} (free : opensSame name (t ++ [' ']) = false)
    (more : List Char) : opensSame name (t ++ ' ' :: more) = false := by
  have apart : ' ' ∉ '<' :: name := by simp [blankless]
  unfold opensSame at free ⊢
  rw [dropStartUpTo apart] at free ⊢
  cases found : dropStart? ('<' :: name) t with
  | none => rfl
  | some r =>
    rw [found] at free
    cases r <;> exact free

theorem closesBefore {t : List Char} (free : closingWidth? name t = none) (more : List Char) :
    closingWidth? name (t ++ ' ' :: '-' :: more) = none := by
  have apart : ' ' ∉ '<' :: '/' :: name := by simp [blankless]
  unfold closingWidth? at free ⊢
  rw [dropStartUpTo apart]
  cases found : dropStart? ('<' :: '/' :: name) t with
  | none => rfl
  | some r =>
    rw [found] at free
    simp only [bind, Option.bind, Option.map_some] at free ⊢
    unfold trimStart at free ⊢
    rw [List.dropWhile_append]
    cases rest : r.dropWhile isBlank with
    | nil => rfl
    | cons d rest' =>
      rw [rest] at free
      simp only [List.isEmpty_cons, Bool.false_eq_true, if_false, List.cons_append]
      split
      · simp_all
      · rfl

theorem passedFree {c : List Char} (free : Free name c) :
    Passed name (c ++ (' ' :: Mark.noteEnd)) := by
  induction c with
  | nil => exact passedPlain name (eachOf rfl)
  | cons d c ih =>
    have rest := ih fun t suffix => free t (suffix.trans (List.suffix_cons d c))
    obtain ⟨starts, ends⟩ := free (d :: c) (List.suffix_refl _)
    intro depth passed s
    have noEnd := closesBefore blankless ends ('-' :: '\x7d' :: '\x7d' :: s)
    have noStart := opensBefore blankless starts ('-' :: '-' :: '\x7d' :: '\x7d' :: s)
    have shape : d :: c ++ ' ' :: '-' :: '-' :: '\x7d' :: '\x7d' :: s =
        d :: (c ++ (' ' :: Mark.noteEnd) ++ s) := by simp [Mark.noteEnd]
    rw [shape] at noEnd noStart
    rw [List.cons_append, List.cons_append, closeOther noEnd noStart, rest, List.length_cons]
    congr 1
    omega

end

theorem passedNote {name : String} (tag : SoundTag name) {c : List Char}
    (free : Free name.toList c) : Passed name.toList (Mark.note c) := by
  have blankless : ' ' ∉ name.toList := fun member =>
    absurd (nameApart (tagChars tag ' ' member)).1 (by decide)
  have shape : Mark.note c =
      ['\x7b', '\x7b', '!', '-', '-', ' '] ++ (c ++ (' ' :: Mark.noteEnd)) := by
    simp [Mark.note]
  rw [shape]
  exact passedAppend (passedPlain _ (eachOf rfl)) (passedFree blankless free)

end Tag

theorem Written.append {ns ms : List (Node Value)} {s t : List Char} (before : Written ns s)
    (after : Written ms t) (apart : Node.Apart ns ms) : Written (ns ++ ms) (s ++ t) := by
  induction before with
  | nil => exact after
  | @text p content ns s nonempty plain apart' rest ih =>
    rw [List.cons_append, List.append_assoc]
    have more := ih (Node.apartRest apart)
    cases ns with
    | nil => exact .text nonempty plain (apart _ rfl rfl) more
    | cons => exact .text nonempty plain apart' more
  | lookup spelling name calls rest ih =>
    rw [List.cons_append, List.append_assoc]
    exact .lookup spelling name calls (ih (Node.apartRest apart))
  | call spelling sound nonempty arguments calls rest ih =>
    rw [List.cons_append, List.append_assoc]
    exact .call spelling sound nonempty arguments calls (ih (Node.apartRest apart))
  | block spelling header sound inside rest _ ih =>
    rw [List.cons_append, List.append_assoc]
    exact .block spelling header sound inside (ih (Node.apartRest apart))
  | element tag sound inside rest _ ih =>
    rw [List.cons_append, List.append_assoc]
    exact .element tag sound inside (ih (Node.apartRest apart))
  | closed tag sound rest ih =>
    rw [List.cons_append, List.append_assoc]
    exact .closed tag sound (ih (Node.apartRest apart))
  | embed sound entries rest ih =>
    rw [List.cons_append, List.append_assoc]
    exact .embed sound entries (ih (Node.apartRest apart))

/- A written tree, without and with `piece` between two of its siblings, at any depth. `around` are
the names of the elements that the piece is inside, from the outermost. -/
inductive Spliced (piece : List Char) :
    List String → List (Node Value) → List Char → List Char → Prop where
  | between {ns ms s t} (before : Written ns s) (after : Written ms t)
      (apart : Node.Apart ns ms) :
      Spliced piece [] (ns ++ ms) (s ++ t) (s ++ (piece ++ t))
  | block {around ns children ms p s body body' t} (before : Written ns s) (spelling : Spelling)
      (header : Header) (sound : header.Sound) (inside : Spliced piece around children body body')
      (after : Written ms t) :
      Spliced piece around (ns ++ header.node p children :: ms)
        (s ++ (header.opener spelling ++ (body ++ header.ender spelling) ++ t))
        (s ++ (header.opener spelling ++ (body' ++ header.ender spelling) ++ t))
  | element {around ns children ms p name props s body body' t} (before : Written ns s)
      (tag : SoundTag name) (sound : SoundProps props)
      (inside : Spliced piece around children body body') (after : Written ms t) :
      Spliced piece (name :: around) (ns ++ .component p name props children :: ms)
        (s ++ (Written.elementStart name props false ++ (body ++ Written.elementEnd name) ++ t))
        (s ++ (Written.elementStart name props false ++ (body' ++ Written.elementEnd name) ++ t))

theorem Spliced.written {piece : List Char} {around : List String} {ns : List (Node Value)}
    {s s' : List Char} (h : Spliced piece around ns s s') : Written ns s := by
  induction h with
  | between before after apart => exact before.append after apart
  | block before spelling header sound _ after ih =>
    exact before.append (.block spelling header sound ih after)
      (Node.apartMarked (Builder.headerMarked ..))
  | element before tag sound _ after ih =>
    exact before.append (.element tag sound ih after) (Node.apartMarked rfl)

theorem Tag.passedSpliced {name : String} (tag : SoundTag name) {piece : List Char}
    (passed : Passed name.toList piece) {around : List String} {ns : List (Node Value)}
    {s s' : List Char} (h : Spliced piece around ns s s') : Passed name.toList s' := by
  induction h with
  | between before after =>
    exact passedAppend (passedWritten tag before) (passedAppend passed (passedWritten tag after))
  | block before spelling header sound _ after ih =>
    have block := passedAppend (passedOpener tag spelling sound)
      (passedAppend ih (passedEnder tag spelling header))
    exact passedAppend (passedWritten tag before) (passedAppend block (passedWritten tag after))
  | element before tag' sound _ after ih =>
    exact passedAppend (passedWritten tag before)
      (passedAppend (passedElement tag tag' sound ih) (passedWritten tag after))

namespace Builder
open Written Mark

theorem readSpliced {c : List Char} (inside : ¬ Mark.noteEnd <:+: c) {around : List String}
    {ns : List (Node Value)} {s s' : List Char} (h : Spliced (Mark.note c) around ns s s')
    (free : ∀ name ∈ around, Tag.Free name.toList c) (debug : Bool) (pos : Position) (b : Builder)
    {t : List Char} (after : Stops t) (apart : b.Apart ns) : Adds debug pos b s' t ns := by
  -- on the place of the comment: next to it stand written siblings, and around it one block or
  -- element at a time
  induction h generalizing pos b t with
  | @between ns ms s u before behind beside =>
    have stops : Stops (Mark.note c ++ u ++ t) := by
      rw [List.append_assoc]
      exact stopsMarker (Mark.beginsNote ..)
    refine addsAppend (readWritten before debug pos b stops (apartFront apart)) fun ns' same => ?_
    have comment : Adds debug (pos.advance s) (b.grown ns') (Mark.note c) (u ++ t) [] :=
      ⟨[], rfl, readMark debug _ _ (Mark.readsNote inside (u ++ t)) (by simp [Mark.note])⟩
    refine addsAppend comment fun absent same' => ?_
    have nothing : absent = [] := by simpa [Node.unplacedMap] using same'
    have apart' := apartGrown (b := b) same beside apart
    rw [nothing]
    exact readWritten behind debug _ _ after apart'
  | @block around ns children ms p s body body' u before spelling header sound _ behind ih =>
    refine addsAround before (headerMarked header p children) (fun x => ?_) behind after apart
      fun pos b => ?_
    · rw [List.append_assoc]
      exact stopsMarker (beginsOpener ..)
    · obtain ⟨ms', same, found⟩ := ih free (pos.advance (header.opener spelling))
        (b.openBlock spelling header pos (String.ofList (header.opener spelling)))
        (stopsMarker (beginsEnder spelling header (u ++ t)))
        (fun _ _ _ _ absent => absurd absent (by simp [openBlock]))
      refine ⟨[header.node pos ms'], ?_, readBlock sound found⟩
      simp only [Node.unplaced.all, headerUnplaced, same]
  | @element around ns children ms p name props s body body' u before tag sound splice behind ih =>
    refine addsAround before rfl (fun x => ?_) behind after apart fun pos b => ?_
    · rw [List.append_assoc]
      exact stopsMarker (beginsElement tag ..)
    · have inner := fun other member => free other (List.mem_cons_of_mem name member)
      obtain ⟨ms', same, children'⟩ := addsAlone
        (ih inner (pos.advance (elementStart name props false)) ⟨[], [], b.issues⟩ (t := []) rfl
          fun _ _ _ _ absent => absurd absent (by simp))
      have passed := Tag.passedSpliced tag
        (Tag.passedNote tag (free name List.mem_cons_self)) splice
      refine ⟨[.component pos name props ms'], ?_, readElement tag sound passed children'⟩
      simp only [Node.unplaced.all, Node.unplaced, same]

end Builder

theorem readingSpliced {c : List Char} (inside : ¬ Mark.noteEnd <:+: c) {around : List String}
    {ns : List (Node Value)} {s s' : List Char} (h : Spliced (Mark.note c) around ns s s')
    (free : ∀ name ∈ around, Tag.Free name.toList c) (debug : Bool) (pos : Position) :
    ∃ ms, Node.unplaced.all ms = Node.unplaced.all ns ∧
      Reading.ofSource debug pos s' = ⟨ms, []⟩ :=
  Reading.ofAdds (Builder.readSpliced inside h free debug pos ⟨[], [], []⟩ (t := []) rfl
    fun _ _ _ _ absent => absurd absent (by simp))

namespace Tag

instance (name c : List Char) : Decidable (Free name c) :=
  decidable_of_iff (∀ t ∈ c.tails, opensSame name (t ++ [' ']) = false ∧
    closingWidth? name t = none) (by simp only [Free, List.mem_tails])

end Tag

namespace Template

theorem readTree (o : ReadOptions) {s : List Char} {ns : List (Node Value)}
    (body : o.frontmatter = true → Frontmatter.split s = none)
    (reading : ∀ pos, ∃ ms, Node.unplaced.all ms = Node.unplaced.all ns ∧
      Reading.ofSource o.debug pos s = ⟨ms, []⟩) :
    ∃ out, read o (String.ofList s) = .ok out ∧ out.issues = [] ∧
      Node.unplaced.all out.template.nodes = Node.unplaced.all ns := by
  have whole : (if o.frontmatter then Frontmatter.split s else none) = none := by
    split
    · exact body ‹_›
    · rfl
  obtain ⟨ms, same, found⟩ := reading ⟨1 + o.lineOffset + (0 : Nat), o.columnOffset⟩
  refine ⟨assemble o [] 0 s, ?_, ?_, ?_⟩
  · simp only [read, String.toList_ofList, whole]
    rfl
  · simp only [assemble, found]
  · simp only [assemble, found]
    exact same

/-- A comment between two siblings, at any depth and whatever its text is, changes neither the tree
nor the issues, which there are none of, if in the text no tag of an element around it opens or
closes, and if no page data is taken from the front of either source. -/
theorem commentsTransparent (o : ReadOptions) {c : List Char} (inside : ¬ Mark.noteEnd <:+: c)
    {around : List String} {ns : List (Node Value)} {s s' : List Char}
    (h : Spliced (Mark.note c) around ns s s') (free : ∀ name ∈ around, Tag.Free name.toList c)
    (body : o.frontmatter = true → Frontmatter.split s = none ∧ Frontmatter.split s' = none) :
    ∃ out out', read o (String.ofList s) = .ok out ∧ read o (String.ofList s') = .ok out' ∧
      out.issues = [] ∧ out'.issues = [] ∧
      Node.unplaced.all out.template.nodes = Node.unplaced.all ns ∧
      Node.unplaced.all out'.template.nodes = Node.unplaced.all out.template.nodes := by
  obtain ⟨out, found, quiet, same⟩ := readTree o (fun on => (body on).1) fun pos =>
    readingWritten h.written o.debug pos
  obtain ⟨out', found', quiet', same'⟩ := readTree o (fun on => (body on).2) fun pos =>
    readingSpliced inside h free o.debug pos
  exact ⟨out, out', found, found', quiet, quiet', same, same'.trans same.symm⟩

private theorem boxTag : SoundTag "Box" := ⟨'B', ['o', 'x'], by simp, rfl, eachOf rfl⟩

private theorem boxed {c : List Char} : Spliced (Mark.note c) ["Box"]
    [.component .start "Box" [] [.text .start "a", .lookup .start "x" true []]]
    "<Box>a<%= x %></Box>".toList
    ("<Box>a".toList ++ (Mark.note c ++ "<%= x %></Box>".toList)) := by
  have text : Written [.text .start "a"] ['a'] :=
    @Written.text .start "a" [] [] (by decide) (eachOf rfl) (by simp) .nil
  have output : Written [.lookup .start "x" true []] ['<', '%', '=', ' ', 'x', ' ', '%', '>'] :=
    .lookup .percent (by decide) (by simp) .nil
  have inside : Spliced (Mark.note c) [] _ _ _ := .between text output (Node.apartMarked rfl)
  have noProps : SoundProps [] := ⟨by simp, by simp⟩
  have whole := Spliced.element (p := .start) .nil boxTag noProps inside .nil
  simpa [Written.elementStart, Written.ending, Written.elementEnd] using whole

theorem transparentBeside : ∃ out out',
    read {} "<% if y %><Box>a<%= x %></Box><% endif %>" = .ok out ∧
    read {} "<% if y %><Box>a\x7b\x7b!-- </Card><Boxes><% endif %> --\x7d\x7d<%= x %></Box><% endif %>" =
      .ok out' ∧
    out.issues = [] ∧ out'.issues = [] ∧
    Node.unplaced.all out.template.nodes = [.cond .start "y"
      [.component .start "Box" [] [.text .start "a", .lookup .start "x" true []]]] ∧
    Node.unplaced.all out'.template.nodes = Node.unplaced.all out.template.nodes := by
  have condition : (Header.cond "y").Sound := by
    change Token.isName "y".toList = true
    rfl
  have whole := Spliced.block (p := .start) .nil .percent (.cond "y") condition
    (boxed (c := "</Card><Boxes><% endif %>".toList)) .nil
  exact commentsTransparent {} (by decide) whole (by decide) fun _ => ⟨by decide, by decide⟩

/- The closing tag of the element ends it, also where it stands in a comment. -/
theorem commentEndsElement : ¬ ∀ (c : List Char) (around : List String) (ns : List (Node Value))
    (s s' : List Char), ¬ Mark.noteEnd <:+: c → Spliced (Mark.note c) around ns s s' →
      Frontmatter.split s = none → Frontmatter.split s' = none →
      ∃ out', read {} (String.ofList s') = .ok out' ∧ out'.issues = [] ∧
        Node.unplaced.all out'.template.nodes = Node.unplaced.all ns := by
  intro transparent
  obtain ⟨out, found, quiet, _⟩ :=
    transparent "</Box>".toList _ _ _ _ (by decide) boxed (by decide) (by decide)
  have met : (read {} "<Box>a\x7b\x7b!-- </Box> --\x7d\x7d<%= x %></Box>").toOption.any
      (fun out => !out.issues.isEmpty) = true := by decide +kernel
  have same : read {} "<Box>a\x7b\x7b!-- </Box> --\x7d\x7d<%= x %></Box>" = .ok out := found
  rw [same] at met
  simp [Except.toOption, quiet] at met

end Template
end Medley
