import Medley.Proofs.Template.Elements
import Medley.Proofs.Template.Reading
import Medley.Template.Read

/-! Reading undoes writing. A tree that is written in any mix of wordings is read back as it was,
but for the places of its nodes, and without issues. The proof follows the siblings: a text is
read up to the marker behind it, a block is closed by its own closing marker, and what stands
inside an element is read by itself. -/
namespace Medley
open Mark

mutual

def Node.unplaced {α : Type} : Node α → Node α
  | .text _ content => .text .start content
  | .lookup _ path escape filters => .lookup .start path escape filters
  | .call _ name args escape filters => .call .start name args escape filters
  | .cond _ condition children => .cond .start condition (unplaced.all children)
  | .each _ target binder children => .each .start target binder (unplaced.all children)
  | .component _ name props children => .component .start name props (unplaced.all children)
  | .embed _ name props => .embed .start name props
  | .layout _ props children => .layout .start props (unplaced.all children)
  | .diagnostic _ code message source => .diagnostic .start code message source

def Node.unplaced.all {α : Type} : List (Node α) → List (Node α)
  | [] => []
  | n :: ns => n.unplaced :: unplaced.all ns

end

theorem Node.unplacedMap {α : Type} (ns : List (Node α)) : unplaced.all ns = ns.map unplaced := by
  induction ns with
  | nil => rfl
  | cons n ns ih => rw [unplaced.all, ih, List.map_cons]

/- What does not depend on places is the same of nodes that are the same up to them. -/
theorem Node.unplacedSame {α β : Type} {f : Node α → β} (placeless : ∀ n, f n.unplaced = f n)
    {ns ms : List (Node α)} (same : unplaced.all ns = unplaced.all ms) :
    ns.map f = ms.map f := by
  have equal := congrArg (List.map f) same
  simpa only [unplacedMap, List.map_map, Function.comp_def, placeless] using equal

theorem Node.unplacedText {α : Type} (n : Node α) : n.unplaced.isText = n.isText := by
  cases n <;> rfl

namespace Written

theorem headerUnplaced {α : Type} (header : Header) (p : Position) (children : List (Node α)) :
    (header.node p children).unplaced = header.node .start (Node.unplaced.all children) := by
  cases header <;> rfl

theorem beginsOpener (spelling : Spelling) (header : Header) (s : List Char) :
    begins (header.opener spelling ++ s) = true := by
  cases spelling <;> rfl

theorem beginsEnder (spelling : Spelling) (header : Header) (s : List Char) :
    begins (header.ender spelling ++ s) = true := by
  cases spelling <;> cases header <;> rfl

theorem beginsOutput (spelling : Spelling) (escape : Bool) (e s : List Char) :
    begins (outputTag spelling escape e ++ s) = true := by
  cases spelling <;> cases escape <;> rfl

theorem beginsElement {name : String} (tag : SoundTag name) (props : List (String × Value))
    (closed : Bool) (s : List Char) : begins (elementStart name props closed ++ s) = true := by
  obtain ⟨c, rest, same, upper, _⟩ := tag
  have noPercent : c ≠ '%' := Text.unlike upper rfl
  simp [elementStart, same, begins, upper]

/- Only a text is written without a marker in front. -/
theorem stops {ns : List (Node Value)} {s : List Char} (h : Written ns s)
    (marked : ∀ n ∈ ns.head?, n.isText = false) {t : List Char} (after : Stops t) :
    Stops (s ++ t) := by
  cases h with
  | nil => exact after
  | text => exact absurd (marked _ rfl) (by simp [Node.isText])
  | lookup spelling =>
    rw [List.append_assoc]
    exact stopsMarker (beginsOutput ..)
  | call spelling =>
    rw [List.append_assoc]
    exact stopsMarker (beginsOutput ..)
  | block spelling header =>
    simp only [List.append_assoc]
    exact stopsMarker (beginsOpener ..)
  | element tag =>
    simp only [List.append_assoc]
    exact stopsMarker (beginsElement tag ..)
  | closed tag =>
    rw [List.append_assoc]
    exact stopsMarker (beginsElement tag ..)
  | embed => exact stopsMarker rfl

end Written

namespace Builder
open Written

theorem readMark (debug : Bool) (pos : Position) (b : Builder) {w t : List Char} {m : Meaning}
    (mark : Reads w t m) (nonempty : w ≠ []) :
    read debug pos b (w ++ t) =
      read debug (pos.advance w) (b.take debug pos (w ++ t) (String.ofList w) m) t := by
  have full : w ++ t ≠ [] := by simp [nonempty]
  rw [readCons debug pos b full, mark.raw, mark.rest, mark.meaning]

theorem pushMarked {n : Node Value} (h : n.isText = false) (siblings : List (Node Value)) :
    Node.push siblings n = n :: siblings :=
  Node.pushOther (fun _ _ text => by cases text; cases h) siblings

theorem pushApart {siblings : List (Node Value)} (apart : ∀ n ∈ siblings.head?, n.isText = false)
    (p : Position) {content : String} (full : content ≠ "") :
    Node.push siblings (.text p content) = .text p content :: siblings := by
  rw [Node.pushText full]
  split
  · exact absurd (apart _ rfl) (by simp [Node.isText])
  · rfl

def grown (b : Builder) (ms : List (Node Value)) : Builder :=
  ⟨ms.reverse ++ b.current, b.frames, b.issues⟩

def Apart (b : Builder) (ns : List (Node Value)) : Prop :=
  ∀ n ∈ ns.head?, n.isText = true → ∀ m ∈ b.current.head?, m.isText = false

/- What is read of `w`, with `t` behind it, are these nodes up to their places; nothing else
changes. -/
def Adds (debug : Bool) (pos : Position) (b : Builder) (w t : List Char)
    (ns : List (Node Value)) : Prop :=
  ∃ ms, Node.unplaced.all ms = Node.unplaced.all ns ∧
    read debug pos b (w ++ t) = read debug (pos.advance w) (b.grown ms) t

theorem addsAlone {debug : Bool} {pos : Position} {issues : List Issue} {s : List Char}
    {ns : List (Node Value)} (h : Adds debug pos ⟨[], [], issues⟩ s [] ns) :
    ∃ ms, Node.unplaced.all ms = Node.unplaced.all ns ∧
      read debug pos ⟨[], [], issues⟩ s = ⟨ms.reverse, [], issues⟩ := by
  obtain ⟨ms, same, found⟩ := h
  rw [List.append_nil, readNil] at found
  exact ⟨ms, same, by simpa [grown] using found⟩

theorem readOn {debug : Bool} {pos : Position} {b : Builder} {w s t : List Char}
    {m n : Node Value} {ns : List (Node Value)} (same : m.unplaced = n.unplaced)
    (step : read debug pos b (w ++ (s ++ t)) =
      read debug (pos.advance w) (b.grown [m]) (s ++ t))
    (rest : Adds debug (pos.advance w) (b.grown [m]) s t ns) :
    Adds debug pos b (w ++ s) t (n :: ns) := by
  obtain ⟨ms, others, rest⟩ := rest
  refine ⟨m :: ms, by rw [Node.unplaced.all, Node.unplaced.all, same, others], ?_⟩
  have whole : (b.grown [m]).grown ms = b.grown (m :: ms) := by simp [grown]
  rw [List.append_assoc, step, rest, whole, Position.advance_append]

theorem readMarked {debug : Bool} {pos : Position} {b : Builder} {w t : List Char}
    {m : Meaning} {n : Node Value} (mark : Reads w t m) (nonempty : w ≠ [])
    (marked : n.isText = false)
    (taken : b.take debug pos (w ++ t) (String.ofList w) m =
      ⟨Node.push b.current n, b.frames, b.issues⟩) :
    read debug pos b (w ++ t) = read debug (pos.advance w) (b.grown [n]) t := by
  rw [readMark debug pos b mark nonempty, taken, pushMarked marked]
  rfl

theorem headerMarked (header : Header) (p : Position) (children : List (Node Value)) :
    (header.node p children).isText = false := by cases header <;> rfl

theorem takeCloses (debug : Bool) (pos p : Position) (b : Builder) (spelling : Spelling)
    (header : Header) (raw raw' : String) (ms : List (Node Value)) (s : List Char) :
    ((b.openBlock spelling header p raw).grown ms).take debug pos s raw'
        (.closes (some ⟨header.isLoop, spelling⟩)) =
      ⟨Node.push b.current (header.node p ms), b.frames, b.issues⟩ := by
  have fits : (⟨spelling, header, p, raw, b.current⟩ : Frame).closer =
      ⟨header.isLoop, spelling⟩ := rfl
  have node : (⟨spelling, header, p, raw, b.current⟩ : Frame).node ms = header.node p ms := by
    cases header <;> rfl
  simp [take, grown, openBlock, close?, closeFrom, fits, node]

/- A block whose opening marker is read in front of its body. -/
theorem readOpened {debug : Bool} {pos : Position} {b : Builder} {spelling : Spelling}
    {header : Header} {v body t : List Char}
    (opens : Reads v (body ++ (header.ender spelling ++ t)) (.opens spelling header))
    {ms : List (Node Value)}
    (inside : read debug (pos.advance v) (b.openBlock spelling header pos (String.ofList v))
        (body ++ (header.ender spelling ++ t)) =
      read debug ((pos.advance v).advance body)
        ((b.openBlock spelling header pos (String.ofList v)).grown ms)
        (header.ender spelling ++ t)) :
    read debug pos b (v ++ (body ++ header.ender spelling) ++ t) =
      read debug (pos.advance (v ++ (body ++ header.ender spelling)))
        (b.grown [header.node pos ms]) t := by
  have closes := readsEnder spelling header t
  have shape : v ++ (body ++ header.ender spelling) ++ t =
      v ++ (body ++ (header.ender spelling ++ t)) := by simp
  rw [shape, readMark debug pos b opens opens.some]
  rw [take, inside, readMark debug _ _ closes closes.some, takeCloses,
    pushMarked (headerMarked header pos ms), Position.advance_append, Position.advance_append]
  rfl

theorem readBlock {debug : Bool} {pos : Position} {b : Builder} {spelling : Spelling}
    {header : Header} (sound : header.Sound) {body t : List Char} {ms : List (Node Value)}
    (inside : read debug (pos.advance (header.opener spelling))
        (b.openBlock spelling header pos (String.ofList (header.opener spelling)))
        (body ++ (header.ender spelling ++ t)) =
      read debug ((pos.advance (header.opener spelling)).advance body)
        ((b.openBlock spelling header pos (String.ofList (header.opener spelling))).grown ms)
        (header.ender spelling ++ t)) :
    read debug pos b (header.opener spelling ++ (body ++ header.ender spelling) ++ t) =
      read debug (pos.advance (header.opener spelling ++ (body ++ header.ender spelling)))
        (b.grown [header.node pos ms]) t :=
  readOpened (readsOpener spelling sound _) inside

theorem readElement {debug : Bool} {pos : Position} {b : Builder} {name : String}
    (tag : SoundTag name) {props : List (String × Value)} (sound : SoundProps props)
    {body t : List Char} (passed : Tag.Passed name.toList body) {ms : List (Node Value)}
    (inside : read debug (pos.advance (elementStart name props false)) ⟨[], [], b.issues⟩ body =
      ⟨ms.reverse, [], b.issues⟩) :
    read debug pos b (elementStart name props false ++ (body ++ elementEnd name) ++ t) =
      read debug (pos.advance (elementStart name props false ++ (body ++ elementEnd name)))
        (b.grown [.component pos name props ms]) t := by
  have mark := readsElement tag sound passed t
  refine readMarked mark (by simp [elementStart]) rfl ?_
  have start : (elementStart name props false ++ (body ++ elementEnd name) ++ t).take
      (elementStart name props false).length = elementStart name props false := by
    rw [List.append_assoc, List.take_left]
  have between : ((elementStart name props false ++ (body ++ elementEnd name) ++ t).drop
      (elementStart name props false).length).take body.length = body := by
    rw [List.append_assoc, List.drop_left, List.append_assoc, List.take_left]
  simp only [take, start, between, inside, finish, finishFrom, List.reverse_reverse]

theorem readLookup (debug : Bool) (pos : Position) (b : Builder) (spelling : Spelling)
    (escape : Bool) {path : String} {filters : List FilterCall}
    (name : Token.isName path.toList = true) (calls : ∀ f ∈ filters, f.Sound) (t : List Char) :
    read debug pos b (outputTag spelling escape (expression path [] filters) ++ t) =
      read debug (pos.advance (outputTag spelling escape (expression path [] filters)))
        (b.grown [.lookup pos path escape filters]) t := by
  obtain ⟨ends, tame⟩ := expressionEndsTame name noArguments calls
  have mark := readsOutput spelling escape tame (expressionBegins [] filters name) ends t
  refine readMarked mark (by simp [outputTag]) rfl ?_
  simp only [take, push]
  rw [ofExpressionWritten pos escape name noArguments calls]
  rfl

theorem readCall (debug : Bool) (pos : Position) (b : Builder) (spelling : Spelling)
    (escape : Bool) {name : String} {args : List String} {filters : List FilterCall}
    (sound : Token.isName name.toList = true) (nonempty : args ≠ [])
    (arguments : ∀ a ∈ args, Token.Argument a.toList) (calls : ∀ f ∈ filters, f.Sound)
    (t : List Char) :
    read debug pos b (outputTag spelling escape (expression name args filters) ++ t) =
      read debug (pos.advance (outputTag spelling escape (expression name args filters)))
        (b.grown [.call pos name args escape filters]) t := by
  obtain ⟨ends, tame⟩ := expressionEndsTame sound arguments calls
  have mark := readsOutput spelling escape tame (expressionBegins args filters sound) ends t
  refine readMarked mark (by simp [outputTag]) rfl ?_
  simp only [take, push]
  rw [ofExpressionWritten pos escape sound arguments calls, if_neg (by simpa using nonempty)]

theorem readClosed (debug : Bool) (pos : Position) (b : Builder) {name : String}
    (tag : SoundTag name) {props : List (String × Value)} (sound : SoundProps props)
    (t : List Char) :
    read debug pos b (elementStart name props true ++ t) =
      read debug (pos.advance (elementStart name props true))
        (b.grown [.component pos name props []]) t := by
  refine readMarked (readsClosed tag sound t) (by simp [elementStart]) rfl ?_
  simp only [take, List.take_zero, readNil]
  rfl

theorem readEmbed (debug : Bool) (pos : Position) (b : Builder) {name : String}
    {props : List (String × String)} (sound : Token.isName name.toList = true)
    (entries : SoundEntries props) (t : List Char) :
    read debug pos b (embedTag name props ++ t) =
      read debug (pos.advance (embedTag name props)) (b.grown [.embed pos name props]) t :=
  readMarked (readsEmbed sound entries t) (by simp [embedTag]) rfl rfl

theorem readWritten {ns : List (Node Value)} {s : List Char} (h : Written ns s) (debug : Bool)
    (pos : Position) (b : Builder) {t : List Char} (after : Stops t) (apart : b.Apart ns) :
    Adds debug pos b s t ns := by
  -- on the written form, for any tree built so far: blocks read their children into a new frame
  induction h generalizing pos b t with
  | nil => exact ⟨[], rfl, rfl⟩
  | @text p content ns s nonempty plain apart' rest ih =>
    have stops := rest.stops apart' after
    have chars : content.toList ≠ [] := by simpa using nonempty
    refine readOn (m := .text pos content) rfl ?_ (ih _ _ after fun n member text => ?_)
    · rw [readMark debug pos b (readsText chars plain stops) chars]
      simp only [take, push, String.ofList_toList]
      rw [pushApart (apart _ rfl rfl) pos nonempty]
      rfl
    · exact absurd text (by simp [apart' n member])
  | @lookup p path escape filters ns s spelling name calls rest ih =>
    refine readOn (m := .lookup pos path escape filters) rfl
      (readLookup debug pos b spelling escape name calls _) (ih _ _ after fun _ _ _ m head => ?_)
    cases head
    rfl
  | @call p name args escape filters ns s spelling name' nonempty arguments calls rest ih =>
    refine readOn (m := .call pos name args escape filters) rfl
      (readCall debug pos b spelling escape name' nonempty arguments calls _)
      (ih _ _ after fun _ _ _ m head => ?_)
    cases head
    rfl
  | @block p children body ns s spelling header sound inside rest ih ih' =>
    have ends := stopsMarker (beginsEnder spelling header (s ++ t))
    obtain ⟨ms, same, found⟩ := ih (pos.advance (header.opener spelling))
      (b.openBlock spelling header pos (String.ofList (header.opener spelling))) ends
      (fun _ _ _ _ absent => absurd absent (by simp [openBlock]))
    refine readOn (m := header.node pos ms) ?_ (readBlock sound found)
      (ih' _ _ after fun _ _ _ m head => ?_)
    · rw [headerUnplaced, headerUnplaced, same]
    · cases head
      exact headerMarked header pos ms
  | @element p name props children body ns s tag sound inside rest ih ih' =>
    -- the children are a source of their own, so nothing follows them
    obtain ⟨ms, same, children⟩ := addsAlone (ih (pos.advance (elementStart name props false))
      ⟨[], [], b.issues⟩ (t := []) rfl (fun _ _ _ _ absent => absurd absent (by simp)))
    have passed := Tag.passedWritten tag inside
    refine readOn (m := .component pos name props ms) ?_ (readElement tag sound passed children)
      (ih' _ _ after fun _ _ _ m head => ?_)
    · rw [Node.unplaced, Node.unplaced, same]
    · cases head
      rfl
  | @closed p name props ns s tag sound rest ih =>
    refine readOn (m := .component pos name props []) rfl (readClosed debug pos b tag sound _)
      (ih _ _ after fun _ _ _ m head => ?_)
    cases head
    rfl
  | @embed p name props ns s sound entries rest ih =>
    refine readOn (m := .embed pos name props) rfl (readEmbed debug pos b sound entries _)
      (ih _ _ after fun _ _ _ m head => ?_)
    cases head
    rfl

end Builder

theorem Reading.ofAdds {debug : Bool} {pos : Position} {s : List Char} {ns : List (Node Value)}
    (h : Builder.Adds debug pos ⟨[], [], []⟩ s [] ns) :
    ∃ ms, Node.unplaced.all ms = Node.unplaced.all ns ∧ ofSource debug pos s = ⟨ms, []⟩ := by
  obtain ⟨ms, same, found⟩ := Builder.addsAlone h
  refine ⟨ms, same, ?_⟩
  simp [ofSource, found, Builder.finish, Builder.finishFrom]

theorem readingWritten {ns : List (Node Value)} {s : List Char} (h : Written ns s) (debug : Bool)
    (pos : Position) : ∃ ms, Node.unplaced.all ms = Node.unplaced.all ns ∧
      Reading.ofSource debug pos s = ⟨ms, []⟩ :=
  Reading.ofAdds (Builder.readWritten h debug pos ⟨[], [], []⟩ (t := []) rfl
    fun _ _ _ _ absent => absurd absent (by simp))

namespace Template

/-- A tree in any mix of wordings is read back, without issues, where no page data is taken from the
front of it. -/
theorem readRestoresTree (o : ReadOptions) {ns : List (Node Value)}
    (sound : Node.Sound.all ns) (choice : List Nat → Wording)
    (body : (if o.frontmatter then Frontmatter.split (Node.written.all choice [] 0 ns) else none) =
      none) :
    ∃ out, read o (String.ofList (Node.written.all choice [] 0 ns)) = .ok out ∧
      out.issues = [] ∧ Node.unplaced.all out.template.nodes = Node.unplaced.all ns := by
  have written := Written.ofSound choice [] 0 sound
  generalize Node.written.all choice [] 0 ns = s at body written
  obtain ⟨ms, same, reading⟩ :=
    readingWritten written o.debug ⟨1 + o.lineOffset + (0 : Nat), o.columnOffset⟩
  refine ⟨assemble o [] 0 s, ?_, ?_, ?_⟩
  · simp only [read, String.toList_ofList, body]
    rfl
  · simp only [assemble, reading]
  · simp only [assemble, reading]
    exact same

def sample : List (Node Value) :=
  [.text .start "Hi ",
    .component .start "Card" [("title", .text "a > b"), ("open", .bool true)]
      [.cond .start "user.ok"
          [.lookup .start "user.name" true [⟨"truncate", ["3", "\"..|\""]⟩],
            .each .start "xs" "x" [.call .start "plural" ["n", "\"item\""] false []]],
        .component .start "Card" [] [.text .start "|"],
        .component .start "Card" [] []],
    .embed .start "side" [("kind", "\"small\""), ("n", "-1")]]

/- Braces and percent signs in turn, from the root to the leaves. -/
def sampleChoice (place : List Nat) : Wording :=
  ⟨if place.length % 2 = 0 then .braces else .percent, true⟩

theorem soundSample : Node.Sound.all sample := by
  have card : SoundTag "Card" := ⟨'C', ['a', 'r', 'd'], by simp, rfl, Text.eachOf rfl⟩
  have noProps : SoundProps [] := ⟨by simp, by simp⟩
  have props : SoundProps [("title", .text "a > b"), ("open", .bool true)] := by
    refine ⟨by simp, fun e member => ?_⟩
    simp only [List.mem_cons, List.not_mem_nil, or_false] at member
    rcases member with rfl | rfl
    · exact ⟨⟨'t', ['i', 't', 'l', 'e'], by simp, rfl, Text.eachOf rfl⟩,
        .inr ⟨"a > b", rfl, Text.eachOf rfl⟩⟩
    · exact ⟨⟨'o', ['p', 'e', 'n'], by simp, rfl, Text.eachOf rfl⟩, .inl rfl⟩
  have shorter : FilterCall.Sound ⟨"truncate", ["3", "\"..|\""]⟩ := by
    refine ⟨by decide, fun a member => ?_⟩
    simp only [List.mem_cons, List.not_mem_nil, or_false] at member
    rcases member with rfl | rfl
    · exact .integer rfl
    · exact @Token.Argument.quoted ['.', '.', '|'] (Text.eachOf rfl)
  have item : ∀ a ∈ ["n", "\"item\""], Token.Argument a.toList := by
    intro a member
    simp only [List.mem_cons, List.not_mem_nil, or_false] at member
    rcases member with rfl | rfl
    · exact .name rfl
    · exact @Token.Argument.quoted ['i', 't', 'e', 'm'] (Text.eachOf rfl)
  have entries : SoundEntries [("kind", "\"small\""), ("n", "-1")] := by
    refine ⟨by simp, fun e member => ?_, fun e member => ?_⟩
    · simp only [List.mem_cons, List.not_mem_nil, or_false] at member
      rcases member with rfl | rfl <;> decide
    · simp only [List.mem_cons, List.not_mem_nil, or_false] at member
      rcases member with rfl | rfl
      · exact @Token.Argument.quoted ['s', 'm', 'a', 'l', 'l'] (Text.eachOf rfl)
      · exact .integer rfl
  have condition : (Header.cond "user.ok").Sound := by
    change Token.isName "user.ok".toList = true
    rfl
  have loop : (Header.each "xs" "x").Sound := ⟨by decide, by decide, Text.eachOf rfl⟩
  have lookup : Node.Sound (.lookup .start "user.name" true [⟨"truncate", ["3", "\"..|\""]⟩]) :=
    ⟨by decide, fun f member => by rw [List.mem_singleton.mp member]; exact shorter⟩
  have call : Node.Sound (.call .start "plural" ["n", "\"item\""] false []) :=
    ⟨by decide, by simp, item, by simp⟩
  exact ⟨⟨by decide, Text.eachOf rfl⟩, by decide,
    ⟨card, props,
      ⟨condition, lookup, by decide, ⟨loop, call, by decide, trivial⟩, by decide, trivial⟩,
      by decide, ⟨card, noProps, ⟨by decide, Text.eachOf rfl⟩, by decide, trivial⟩, by decide,
      ⟨card, noProps, trivial⟩, by decide, trivial⟩,
    by decide, ⟨by decide, entries⟩, by decide, trivial⟩

theorem readRestoresSample : ∃ out,
    read {} (String.ofList (Node.written.all sampleChoice [] 0 sample)) = .ok out ∧
      out.issues = [] ∧ Node.unplaced.all out.template.nodes = Node.unplaced.all sample :=
  readRestoresTree {} soundSample sampleChoice rfl

end Template
end Medley
