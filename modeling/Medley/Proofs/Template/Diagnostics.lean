import Medley.Proofs.Template.Reading
import Medley.Template.Read

/-! Readings with and without diagnostics. Putting every diagnostic back as the text it stands for
and joining the texts that then meet turns a reading with diagnostics into the reading without
them; page data, references and issues are the same in both. -/
namespace Medley.Node
variable {α : Type}

/- Texts that meet are one text, at the place of the first; so they are joined among siblings, and
at any depth, once diagnostics are the texts they stand for. -/
def joinTexts : List (Node α) → List (Node α)
  | [] => []
  | n :: rest => match n, joinTexts rest with
    | .text p s, .text _ t :: more => .text p (s ++ t) :: more
    | n, joined => n :: joined

mutual

def restored : Node α → Node α
  | .diagnostic p _ _ source => .text p source
  | .cond p condition children => .cond p condition (restored.all children)
  | .each p target binder children => .each p target binder (restored.all children)
  | .component p name props children => .component p name props (restored.all children)
  | .layout p props children => .layout p props (restored.all children)
  | .text p s => .text p s
  | .lookup p path escape filters => .lookup p path escape filters
  | .call p name args escape filters => .call p name args escape filters
  | .embed p name props => .embed p name props

def restored.all : List (Node α) → List (Node α)
  | [] => []
  | n :: ns => n.restored :: restored.all ns

end

mutual

def joined : Node α → Node α
  | .cond p condition children => .cond p condition (joinTexts (joined.all children))
  | .each p target binder children => .each p target binder (joinTexts (joined.all children))
  | .component p name props children => .component p name props (joinTexts (joined.all children))
  | .layout p props children => .layout p props (joinTexts (joined.all children))
  | .diagnostic p code message source => .diagnostic p code message source
  | .text p s => .text p s
  | .lookup p path escape filters => .lookup p path escape filters
  | .call p name args escape filters => .call p name args escape filters
  | .embed p name props => .embed p name props

def joined.all : List (Node α) → List (Node α)
  | [] => []
  | n :: ns => n.joined :: joined.all ns

end

def withText (ns : List (Node α)) : List (Node α) := joinTexts (joined.all (restored.all ns))

def plain (n : Node α) : Node α := n.restored.joined

theorem withTextMap (ns : List (Node α)) : withText ns = joinTexts (ns.map plain) := by
  unfold withText
  congr 1
  induction ns with
  | nil => rfl
  | cons n ns ih => simp only [restored.all, joined.all, List.map_cons, ih, plain]

theorem joinTextsPair (p q : Position) (s t : String) (rest : List (Node α)) :
    joinTexts (.text p s :: .text q t :: rest) = joinTexts (.text p (s ++ t) :: rest) := by
  simp only [joinTexts]
  cases joinTexts rest with
  | nil => rfl
  | cons m more => cases m <;> simp [String.append_assoc]

theorem joinTextsOther {n : Node α} (other : ∀ p s, n ≠ .text p s) (rest : List (Node α)) :
    joinTexts (n :: rest) = n :: joinTexts rest := by
  cases n with
  | text p s => exact absurd rfl (other p s)
  | _ => simp only [joinTexts]

def Blank : Node α → Prop
  | .text _ s | .diagnostic _ _ _ s => s = ""
  | _ => False

theorem pushAllCons (acc : List (Node α)) (n : Node α) (ns : List (Node α)) :
    pushAll acc (n :: ns) = pushAll (push acc n) ns := rfl

theorem pushAllAppend (acc ns ms : List (Node α)) :
    pushAll acc (ns ++ ms) = pushAll (pushAll acc ns) ms := List.foldl_append ..

/- Appending siblings one by one joins the texts that meet. Both forms of what stands before them
are needed at once: a text takes what follows into itself, anything else does not. -/
theorem pushAllJoin {ns : List (Node α)} (full : ∀ n ∈ ns, ¬ n.Blank) :
    (∀ acc p s, pushAll (.text p s :: acc) ns = (joinTexts (.text p s :: ns)).reverse ++ acc) ∧
    ∀ acc, (∀ p s rest, acc ≠ .text p s :: rest) →
      pushAll acc ns = (joinTexts ns).reverse ++ acc := by
  induction ns with
  | nil => exact ⟨fun acc p s => rfl, fun acc _ => rfl⟩
  | cons n ns ih =>
    obtain ⟨after, other⟩ := ih fun m h => full m (List.mem_cons_of_mem n h)
    by_cases isText : ∃ q t, n = .text q t
    · obtain ⟨q, t, rfl⟩ := isText
      have nonempty : t ≠ "" := full _ List.mem_cons_self
      refine ⟨fun acc p s => ?_, fun acc noText => ?_⟩
      · rw [pushAllCons, pushText nonempty, joinTextsPair]
        exact after acc p (s ++ t)
      · have front : push acc (.text q t) = .text q t :: acc := by
          rw [pushText nonempty]
          split
          · exact absurd rfl (noText _ _ _)
          · rfl
        rw [pushAllCons, front]
        exact after acc q t
    · have noText : ∀ p s, n ≠ .text p s := fun p s h => isText ⟨p, s, h⟩
      have step : ∀ acc, pushAll acc (n :: ns) = (joinTexts (n :: ns)).reverse ++ acc := by
        intro acc
        rw [pushAllCons, pushOther noText, joinTextsOther noText,
          other (n :: acc) fun p s rest h => noText p s (List.cons.inj h).1]
        simp
      refine ⟨fun acc p s => ?_, fun acc _ => step acc⟩
      rw [step]
      have apart : joinTexts (.text p s :: n :: ns) = .text p s :: joinTexts (n :: ns) := by
        rw [joinTextsOther noText]
        cases n with
        | text q t => exact absurd rfl (noText q t)
        | _ => simp only [joinTexts]
      simp [apart]

theorem pushAllNil {ns : List (Node α)} (full : ∀ n ∈ ns, ¬ n.Blank) :
    pushAll [] ns = (joinTexts ns).reverse := by
  simpa using (pushAllJoin full).2 [] fun _ _ _ h => by simp at h

theorem joinTextsFull {ns : List (Node α)} (full : ∀ n ∈ ns, ¬ n.Blank) :
    ∀ n ∈ joinTexts ns, ¬ n.Blank := by
  induction ns with
  | nil => simp [joinTexts]
  | cons n ns ih =>
    have rest := ih fun m h => full m (List.mem_cons_of_mem n h)
    have first := full n List.mem_cons_self
    simp only [joinTexts]
    split
    · rename_i p s _ q t more found
      rw [found] at rest
      intro m member
      rcases List.mem_cons.mp member with rfl | inside
      · simp only [Blank] at first ⊢
        simp [first]
      · exact rest m (List.mem_cons_of_mem _ inside)
    · intro m member
      rcases List.mem_cons.mp member with rfl | inside
      · exact first
      · exact rest m inside

theorem pushAllJoined {ns : List (Node α)} (full : ∀ n ∈ ns, ¬ n.Blank) (acc : List (Node α)) :
    pushAll acc (joinTexts ns) = pushAll acc ns := by
  induction ns generalizing acc with
  | nil => rfl
  | cons n ns ih =>
    have rest : ∀ m ∈ ns, ¬ m.Blank := fun m h => full m (List.mem_cons_of_mem n h)
    have first := full n List.mem_cons_self
    have step := ih rest (push acc n)
    rw [pushAllCons, ← step]
    simp only [joinTexts]
    split
    · rename_i p s _ q t more found
      have second := joinTextsFull rest (.text q t) (by rw [found]; exact List.mem_cons_self)
      rw [found, pushAllCons, pushAllCons]
      congr 1
      simp only [Blank] at first second
      rw [pushText (by simp [first]), pushText first, pushText second]
      split <;> simp [String.append_assoc]
    · rfl

theorem plainBlank {n : Node α} (full : ¬ n.Blank) : ¬ n.plain.Blank := by
  cases n with
  | text p s | diagnostic p code message s => simpa [plain, restored, joined, Blank] using full
  | _ => simp [plain, restored, joined, Blank]

theorem plainAllFull {ns : List (Node α)} (full : ∀ n ∈ ns, ¬ n.Blank) :
    ∀ n ∈ ns.map plain, ¬ n.Blank := by
  intro m member
  obtain ⟨n, inside, rfl⟩ := List.mem_map.mp member
  exact plainBlank (full n inside)

def held (ns : List (Node α)) : List (Node α) := pushAll [] (ns.map plain).reverse

theorem heldCons (n : Node α) (ns : List (Node α)) : held (n :: ns) = push (held ns) n.plain := by
  simp only [held, List.map_cons, List.reverse_cons, pushAllAppend, pushAllCons]
  rfl

theorem heldReverse {ns : List (Node α)} (full : ∀ n ∈ ns, ¬ n.Blank) :
    (held ns).reverse = withText ns.reverse := by
  have plainFull : ∀ n ∈ (ns.map plain).reverse, ¬ n.Blank := fun n h =>
    plainAllFull full n (List.mem_reverse.mp h)
  rw [held, pushAllNil plainFull, List.reverse_reverse, withTextMap, List.map_reverse]

theorem pushFull {n : Node α} {ns : List (Node α)} (nonempty : ¬ n.Blank)
    (full : ∀ m ∈ ns, ¬ m.Blank) : ∀ m ∈ push ns n, ¬ m.Blank := by
  by_cases isText : ∃ p s, n = .text p s
  · obtain ⟨p, s, rfl⟩ := isText
    simp only [Blank] at nonempty
    rw [pushText nonempty]
    split
    · rename_i q t rest
      intro m member
      rcases List.mem_cons.mp member with rfl | inside
      · simp [Blank, nonempty]
      · exact full m (List.mem_cons_of_mem _ inside)
    · simpa [Blank, nonempty] using full
  · rw [pushOther fun p s h => isText ⟨p, s, h⟩]
    intro m member
    rcases List.mem_cons.mp member with rfl | inside
    · exact nonempty
    · exact full m inside

theorem pushAllFull {ms ns : List (Node α)} (new : ∀ m ∈ ms, ¬ m.Blank)
    (full : ∀ m ∈ ns, ¬ m.Blank) : ∀ m ∈ pushAll ns ms, ¬ m.Blank := by
  induction ms generalizing ns with
  | nil => exact full
  | cons m ms ih =>
    exact ih (fun x h => new x (List.mem_cons_of_mem m h))
      (pushFull (new m List.mem_cons_self) full)

theorem heldPush {n : Node α} {ns : List (Node α)} (nonempty : ¬ n.Blank)
    (full : ∀ m ∈ ns, ¬ m.Blank) : held (push ns n) = push (held ns) n.plain := by
  by_cases isText : ∃ p s, n = .text p s
  · obtain ⟨p, s, rfl⟩ := isText
    simp only [Blank] at nonempty
    rw [pushText nonempty]
    split
    · rename_i q t rest
      have before : t ≠ "" := full _ List.mem_cons_self
      have both : t ++ s ≠ "" := by simp [before]
      rw [heldCons, heldCons]
      simp only [plain, restored, joined]
      rw [pushText both, pushText before, pushText nonempty]
      split <;> simp [String.append_assoc]
    · rw [heldCons]
  · rw [pushOther fun p s h => isText ⟨p, s, h⟩, heldCons]

theorem heldPushAll {ms ns : List (Node α)} (new : ∀ m ∈ ms, ¬ m.Blank)
    (full : ∀ m ∈ ns, ¬ m.Blank) : held (pushAll ns ms) = pushAll (held ns) (ms.map plain) := by
  induction ms generalizing ns with
  | nil => rfl
  | cons m ms ih =>
    have first := new m List.mem_cons_self
    rw [pushAllCons, ih (fun x h => new x (List.mem_cons_of_mem m h)) (pushFull first full),
      heldPush first full]
    rfl

end Medley.Node

namespace Medley
open Node

structure Builder.Full (b : Builder) : Prop where
  current : ∀ n ∈ b.current, ¬ n.Blank
  frames : ∀ f ∈ b.frames, f.raw ≠ "" ∧ ∀ n ∈ f.before, ¬ n.Blank

def Frame.held (f : Frame) : Frame := { f with before := Node.held f.before }

def Builder.held (b : Builder) : Builder :=
  ⟨Node.held b.current, b.frames.map Frame.held, b.issues⟩

theorem Issue.nodeFull {i : Issue} (nonempty : i.source ≠ "") (debug : Bool) :
    ¬ (i.node debug).Blank := by
  cases debug <;> simpa [Issue.node, Blank] using nonempty

theorem Issue.nodePlain (i : Issue) : (i.node true).plain = i.node false := rfl

theorem Frame.nodePlain (f : Frame) (children : List (Node Value)) :
    (f.node children).plain = f.node (withText children) := by
  unfold Frame.node
  cases f.header <;> rfl

theorem Frame.nodeFull (f : Frame) (children : List (Node Value)) : ¬ (f.node children).Blank := by
  unfold Frame.node
  cases f.header <;> simp [Blank]

namespace Builder

theorem spillFull {f : Frame} {children : List (Node Value)}
    (frame : f.raw ≠ "" ∧ ∀ n ∈ f.before, ¬ n.Blank) (full : ∀ n ∈ children, ¬ n.Blank)
    (debug : Bool) : ∀ n ∈ spill debug f children, ¬ n.Blank :=
  pushAllFull (fun n h => full n (List.mem_reverse.mp h))
    (pushFull (Issue.nodeFull frame.1 debug) frame.2)

theorem spillHeld {f : Frame} {children : List (Node Value)}
    (frame : f.raw ≠ "" ∧ ∀ n ∈ f.before, ¬ n.Blank) (full : ∀ n ∈ children, ¬ n.Blank) :
    Node.held (spill true f children) = spill false f.held (Node.held children) := by
  have opener : ¬ (f.unclosed.node true).Blank := Issue.nodeFull frame.1 true
  have inside : ∀ n ∈ children.reverse, ¬ n.Blank := fun n h => full n (List.mem_reverse.mp h)
  calc Node.held (spill true f children)
      = pushAll (Node.push (Node.held f.before) (f.unclosed.node false))
          (children.reverse.map plain) := by
        rw [spill, heldPushAll inside (pushFull opener frame.2), heldPush opener frame.2,
          Issue.nodePlain]
    _ = pushAll (Node.push (Node.held f.before) (f.unclosed.node false))
          (Node.held children).reverse := by
        rw [heldReverse full, withTextMap, pushAllJoined (plainAllFull inside)]
    _ = spill false f.held (Node.held children) := rfl

theorem closeFromHeld (closer : Closer) (issues : List Issue) {frames : List Frame}
    {current : List (Node Value)} (full : (Builder.mk current frames issues).Full) :
    (closeFrom true closer current issues frames).Full ∧
      (closeFrom true closer current issues frames).held =
        closeFrom false closer (Node.held current) issues (frames.map Frame.held) := by
  induction frames generalizing current issues with
  | nil => exact ⟨full, rfl⟩
  | cons f frames ih =>
    obtain ⟨children, all⟩ := full
    have frame := all f List.mem_cons_self
    have rest : ∀ g ∈ frames, g.raw ≠ "" ∧ ∀ n ∈ g.before, ¬ n.Blank :=
      fun g h => all g (List.mem_cons_of_mem f h)
    have same : f.held.closer = f.closer := rfl
    simp only [closeFrom, List.map_cons, same]
    split
    · have new := f.nodeFull current.reverse
      refine ⟨⟨pushFull new frame.2, rest⟩, ?_⟩
      simp only [held, heldPush new frame.2, Frame.nodePlain, heldReverse children]
      rfl
    · rw [← spillHeld frame children]
      exact ih (f.unclosed :: issues) ⟨spillFull frame children true, rest⟩

theorem finishFromHeld (issues : List Issue) {frames : List Frame} {current : List (Node Value)}
    (full : (Builder.mk current frames issues).Full) :
    (finishFrom true current issues frames).Full ∧
      (finishFrom true current issues frames).held =
        finishFrom false (Node.held current) issues (frames.map Frame.held) := by
  induction frames generalizing current issues with
  | nil => exact ⟨full, rfl⟩
  | cons f frames ih =>
    obtain ⟨children, all⟩ := full
    have frame := all f List.mem_cons_self
    simp only [finishFrom, List.map_cons]
    rw [← spillHeld frame children]
    exact ih (f.unclosed :: issues)
      ⟨spillFull frame children true, fun g h => all g (List.mem_cons_of_mem f h)⟩

theorem finishHeld {b : Builder} (full : b.Full) :
    (b.finish true).Full ∧ (b.finish true).held = b.held.finish false :=
  finishFromHeld b.issues full

theorem pushHeld {b : Builder} {n : Node Value} (nonempty : ¬ n.Blank) (full : b.Full) :
    (b.push n).Full ∧ (b.push n).held = b.held.push n.plain :=
  ⟨⟨pushFull nonempty full.current, full.frames⟩, by
    simp only [held, push, heldPush nonempty full.current]⟩

theorem malformedHeld {b : Builder} {i : Issue} (nonempty : i.source ≠ "") (full : b.Full) :
    (b.malformed true i).Full ∧ (b.malformed true i).held = b.held.malformed false i := by
  have new := Issue.nodeFull nonempty true
  refine ⟨⟨pushFull new full.current, full.frames⟩, ?_⟩
  simp only [held, malformed, heldPush new full.current, Issue.nodePlain]

theorem closeHeld {b : Builder} (full : b.Full) (closer : Option Closer) :
    match b.close? true closer with
    | some c => c.Full ∧ b.held.close? false closer = some c.held
    | none => b.held.close? false closer = none := by
  cases closer with
  | none => rfl
  | some closer =>
    have same : (b.held.frames.any fun f => decide (f.closer = closer)) =
        b.frames.any fun f => decide (f.closer = closer) := by
      simp only [held, List.any_map]
      rfl
    obtain ⟨keeps, equal⟩ := closeFromHeld closer b.issues full
    simp only [close?, bind, Option.bind, same]
    cases b.frames.any fun f => decide (f.closer = closer) with
    | true => exact ⟨keeps, congrArg some equal.symm⟩
    | false => rfl

theorem rawFull {s : List Char} (nonempty : s ≠ []) (m : Mark) : String.ofList (m.raw s) ≠ "" := by
  simpa using m.rawNonempty nonempty

/- One mark keeps the correspondence. `inner` is the same for shorter sources, which the children
of an element are. -/
theorem takeHeld {s : List Char} {raw : String} (nonempty : raw ≠ "") {b : Builder} (full : b.Full)
    (pos : Position) (m : Meaning)
    (inner : ∀ t : List Char, t.length < s.length → ∀ (pos : Position) (b : Builder), b.Full →
      (read true pos b t).Full ∧ (read true pos b t).held = read false pos b.held t)
    (source : s ≠ []) :
    (b.take true pos s raw m).Full ∧
      (b.take true pos s raw m).held = b.held.take false pos s raw m := by
  cases m with
  | text => exact pushHeld nonempty full
  | comment => exact ⟨full, rfl⟩
  | output escape content =>
    have made : ∀ n, n = Node.ofExpression pos escape content → ¬ n.Blank ∧ n.plain = n := by
      intro n same
      unfold Node.ofExpression at same
      subst same
      dsimp only
      split
      · split <;> exact ⟨fun h => h, rfl⟩
      · exact ⟨fun h => h, rfl⟩
    obtain ⟨new, same⟩ := made _ rfl
    have step := pushHeld new full
    rw [same] at step
    exact step
  | embed name props => exact pushHeld (n := .embed pos name props) (fun h => h) full
  | opens spelling header =>
    refine ⟨⟨List.forall_mem_nil _, ?_⟩, rfl⟩
    intro f member
    rcases List.mem_cons.mp member with rfl | inside
    · exact ⟨nonempty, full.current⟩
    · exact full.frames f inside
  | closes closer =>
    have step := closeHeld full closer
    simp only [take]
    cases found : b.close? true closer with
    | none =>
      rw [found] at step
      rw [step]
      exact malformedHeld nonempty full
    | some c =>
      rw [found] at step
      rw [step.2]
      exact ⟨step.1, rfl⟩
  | broken code message => exact malformedHeld nonempty full
  | element name props tag inside tag_pos =>
    -- the children are read by themselves, from a shorter source
    have shorter := inside_length_lt inside tag_pos source
    have empty : (Builder.mk [] [] b.issues).Full := ⟨by simp, by simp⟩
    obtain ⟨readFull, readSame⟩ := inner _ shorter (pos.advance (s.take tag)) _ empty
    obtain ⟨endFull, endSame⟩ := finishHeld readFull
    rw [readSame] at endSame
    simp only [take]
    generalize (read true (pos.advance (s.take tag)) ⟨[], [], b.issues⟩
      ((s.drop tag).take inside)).finish true = children at endFull endSame
    have new : ¬ (Node.component pos name props children.current.reverse).Blank := fun h => h
    have outcome : (read false (pos.advance (s.take tag)) ⟨[], [], b.held.issues⟩
        ((s.drop tag).take inside)).finish false = children.held := endSame.symm
    refine ⟨⟨pushFull new full.current, full.frames⟩, ?_⟩
    rw [outcome]
    simp only [held, heldPush new full.current, heldReverse endFull.current]
    rfl

theorem readHeld {b : Builder} (full : b.Full) (pos : Position) (s : List Char) :
    (read true pos b s).Full ∧ (read true pos b s).held = read false pos b.held s := by
  induction s using bySource generalizing pos b with
  | nil =>
    rw [readNil, readNil]
    exact ⟨full, rfl⟩
  | next s source shorter =>
    rw [readCons true pos b source, readCons false pos b.held source]
    obtain ⟨next, same⟩ := takeHeld (rawFull source (Mark.next s)) full pos (Mark.next s).meaning
      (fun t less pos b full => shorter t less full pos) source
    rw [← same]
    exact shorter _ ((Mark.next s).rest_length_lt source) next _

end Builder

theorem Reading.withoutDiagnostics (pos : Position) (s : List Char) :
    Reading.ofSource false pos s =
      ⟨withText (Reading.ofSource true pos s).nodes, (Reading.ofSource true pos s).issues⟩ := by
  have empty : (Builder.mk [] [] []).Full := ⟨by simp, by simp⟩
  obtain ⟨full, same⟩ := Builder.readHeld empty pos s
  obtain ⟨endFull, endSame⟩ := Builder.finishHeld full
  rw [same] at endSame
  have outcome : (Builder.read false pos ⟨[], [], []⟩ s).finish false =
      ((Builder.read true pos ⟨[], [], []⟩ s).finish true).held := endSame.symm
  simp only [Reading.ofSource, outcome, Builder.held, heldReverse endFull.current]

theorem Node.joinTextsReferences {α : Type} (ns : List (Node α)) :
    references.ofAll (joinTexts ns) = references.ofAll ns := by
  induction ns with
  | nil => rfl
  | cons n ns ih =>
    simp only [joinTexts, references.ofAll, ← ih]
    split
    · rename_i found
      rw [found]
      rfl
    · rfl

mutual

theorem Node.plainReferences {α : Type} (n : Node α) : n.plain.references = n.references := by
  cases n with
  | cond p condition children => exact Node.withTextReferences children
  | each p target binder children => exact Node.withTextReferences children
  | layout p props children => exact Node.withTextReferences children
  | component p name props children =>
    exact congrArg (_ ++ ·) (Node.withTextReferences children)
  | _ => rfl

theorem Node.withTextReferences {α : Type} (ns : List (Node α)) :
    references.ofAll (withText ns) = references.ofAll ns := by
  rw [withTextMap, joinTextsReferences]
  cases ns with
  | nil => rfl
  | cons n ns =>
    have rest := Node.withTextReferences ns
    rw [withTextMap, joinTextsReferences] at rest
    simp only [List.map_cons, references.ofAll, Node.plainReferences n, rest]

end

namespace Template

def Outcome.withText (o : Outcome) : Outcome :=
  { o with template := { o.template with nodes := Node.withText o.template.nodes } }

theorem assembleWithText (o : ReadOptions) (data : Layer) (lines : Nat) (body : List Char) :
    assemble { o with debug := false } data lines body =
      (assemble { o with debug := true } data lines body).withText := by
  simp only [assemble, Reading.withoutDiagnostics, Outcome.withText, Metadata.of,
    Node.withTextReferences]

/-- A reading without diagnostics is the reading with diagnostics, with each diagnostic replaced by
the text it stands for and the texts that meet joined; metadata, issues and faults are the same. -/
theorem readWithoutDiagnostics (o : ReadOptions) (source : String) :
    read { o with debug := false } source =
      (read { o with debug := true } source).map Outcome.withText := by
  simp only [read, assembleWithText]
  cases (if o.frontmatter then Frontmatter.split source.toList else none) with
  | none => rfl
  | some split =>
    dsimp only
    cases Frontmatter.data split.block <;> rfl

end Template
end Medley
