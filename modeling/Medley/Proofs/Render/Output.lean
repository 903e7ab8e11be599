import Medley.Proofs.Render.Alike
import Medley.Proofs.Template.Verbatim
import Medley.Session

/-! What a render puts out. Some steps only write, and one after the other they write one after the
other; so texts put out what they say. -/
namespace Medley

namespace Run

def Writes (m : Run Unit) (chunks : List Chunk) : Prop :=
  ∀ w, m.on w = (.ok (), { w with chunks := chunks.reverse ++ w.chunks })

theorem Writes.pure : Writes (Pure.pure ()) [] := fun _ => rfl

theorem Writes.emit (chunk : Chunk) : Writes (Run.emit .plain chunk) [chunk] := fun _ => rfl

theorem Writes.bind {m m' : Run Unit} {cs cs' : List Chunk} (first : Writes m cs)
    (second : Writes m' cs') : Writes (m >>= fun _ => m') (cs ++ cs') := by
  intro w
  rw [onBindOk (first w), second]
  simp

def output (m : Run Unit) (w : World) : Except Fault String :=
  (m.on w).1.map fun _ => String.join ((m.on w).2.chunks.reverse.map Chunk.text)

theorem Writes.output {m : Run Unit} {chunks : List Chunk} (writes : Writes m chunks) {w : World}
    (fresh : w.chunks = []) : m.output w = .ok (String.join (chunks.map Chunk.text)) := by
  unfold Run.output
  rw [writes, fresh]
  simp [Except.map]

/-- Where the cache is of a kind, it puts out this text, with these comments in it. -/
def Prints (C : Cache → Prop) (m : Run Unit) (text : String) (notes : List Chunk) : Prop :=
  ∀ w, C w.cache → ∃ (w' : World) (cs : List Chunk), m.on w = (.ok (), w') ∧
    w'.chunks = cs.reverse ++ w.chunks ∧ String.join (cs.map Chunk.text) = text ∧
      cs.filter Chunk.isComment = notes

variable {C : Cache → Prop} {m m' : Run Unit} {text text' : String} {notes notes' : List Chunk}

theorem Writes.prints {chunks : List Chunk} (h : Writes m chunks) :
    Prints C m (String.join (chunks.map Chunk.text)) (chunks.filter Chunk.isComment) :=
  fun w _ => ⟨_, chunks, h w, rfl, rfl, rfl⟩

theorem Prints.anywhere (h : Prints (fun _ => True) m text notes) : Prints C m text notes :=
  fun w _ => h w trivial

theorem Prints.bind (first : Prints C m text notes)
    (second : Prints (fun _ => True) m' text' notes') :
    Prints C (m >>= fun _ => m') (text ++ text') (notes ++ notes') := by
  intro w held
  obtain ⟨w', cs, run, chunks, rfl, rfl⟩ := first w held
  obtain ⟨w'', cs', run', chunks', rfl, rfl⟩ := second w' trivial
  refine ⟨w'', cs ++ cs', ?_, ?_, ?_, List.filter_append ..⟩
  · rw [onBindOk run, run']
  · rw [chunks', chunks]
    simp
  · simp [String.join_append]

theorem Prints.output (h : Prints C m text notes) {w : World} (held : C w.cache)
    (fresh : w.chunks = []) :
    m.output w = .ok text ∧ (m.on w).2.chunks.reverse.filter Chunk.isComment = notes := by
  obtain ⟨w', cs, run, chunks, rfl, rfl⟩ := h w held
  unfold Run.output
  rw [run, chunks, fresh]
  simp [Except.map]

end Run

namespace Node
variable {α : Type}

def literals (ns : List (Node α)) : List Chunk :=
  (ns.filter fun n => !n.wording.isEmpty).map fun n => .literal n.wording

theorem literalsText (ns : List (Node α)) :
    String.join ((literals ns).map Chunk.text) = String.join (ns.map wording) := by
  refine String.toList_inj.mp ?_
  rw [String.toList_join, String.toList_join]
  induction ns with
  | nil => rfl
  | cons n ns ih =>
    rw [List.map_cons, List.flatMap_cons, ← ih]
    unfold literals
    rw [List.filter_cons]
    split
    · rfl
    · rename_i empty
      have absent : n.wording = "" := by simpa using empty
      rw [absent]
      rfl

theorem literalsQuiet (ns : List (Node α)) : (literals ns).filter Chunk.isComment = [] := by
  refine List.filter_eq_nil_iff.mpr fun chunk member => ?_
  obtain ⟨n, _, rfl⟩ := List.mem_map.mp member
  exact Bool.false_ne_true

end Node

namespace Stage
variable {s : Stage}

section
variable (c : RenderContext) (level : Nat) (scope : Scope)

theorem nodesAppend (ns ms : List (Node Value)) :
    s.nodes c level scope (ns ++ ms) =
      s.nodes c level scope ns >>= fun _ => s.nodes c level scope ms := by
  induction ns with
  | nil =>
    rw [List.nil_append, nodes, pure_bind]
  | cons n ns ih =>
    rw [List.cons_append, nodes, nodes, ih, bind_assoc]

theorem textsWrite (plain : s.sink = .plain) {ns : List (Node Value)}
    (texts : ∀ n ∈ ns, n.isText = true) :
    Run.Writes (s.nodes c level scope ns) (Node.literals ns) := by
  induction ns with
  | nil =>
    rw [nodes]
    exact .pure
  | cons n ns ih =>
    obtain ⟨first, rest⟩ := List.forall_mem_cons.mp texts
    have later := ih rest
    cases n with
    | text pos content =>
      rw [nodes, node]
      unfold Node.literals
      rw [List.filter_cons]
      split
      · rename_i empty
        rw [if_neg (by simpa [Node.wording] using empty)]
        exact Run.Writes.pure.bind later
      · rename_i full
        rw [if_pos (by simpa [Node.wording] using full), plain]
        exact (Run.Writes.emit _).bind later
    | _ => cases first

theorem textsPrint {C : Cache → Prop} (plain : s.sink = .plain) {ns : List (Node Value)}
    (texts : ∀ n ∈ ns, n.isText = true) :
    Run.Prints C (s.nodes c level scope ns) (String.join (ns.map Node.wording)) [] := by
  have prints := (textsWrite c level scope plain texts).prints (C := C)
  rwa [Node.literalsText, Node.literalsQuiet] at prints

end

theorem exceededQuiet (s : Stage) {c : RenderContext} (quiet : c.debug = false) (kind : Kind)
    (name : String) : s.exceeded c kind name = pure () := by
  simp [exceeded, warn, comment, quiet]

theorem missingQuiet (s : Stage) {c : RenderContext} (quiet : c.debug = false) (kind : Kind)
    (name : String) : s.missing c kind name = pure () := by
  simp [missing, comment, quiet]

/- The comment on a template that is not nested any more. -/
def refusal (limit : Int) (kind : Kind) (name : String) : Chunk :=
  .comment Code.depthExceeded.text
    s!"Maximum nesting depth ({shownInt limit}) exceeded at {kind.text} '{name}'"

theorem exceededPrints {C : Cache → Prop} (plain : s.sink = .plain) (c : RenderContext)
    (kind : Kind) (name : String) {notes : List Chunk}
    (said : notes = if c.debug then [refusal c.maxDepth kind name] else []) :
    Run.Prints C (s.exceeded c kind name) (String.join (notes.map Chunk.text)) notes := by
  cases debug : c.debug with
  | false =>
    rw [debug, if_neg Bool.false_ne_true] at said
    rw [said, exceededQuiet s debug]
    exact Run.Writes.pure.prints
  | true =>
    rw [debug, if_pos rfl] at said
    subst said
    intro w _
    refine ⟨((s.exceeded c kind name).on w).2, [refusal c.maxDepth kind name], ?_, ?_, rfl, rfl⟩
    all_goals
      unfold exceeded warn comment
      rw [debug, plain]
      rfl

def outermost (s : Stage) (p : Page) (values : Layer) : Scope :=
  if p.data.isEmpty then [[], values, s.engine.globals]
  else p.data :: [[], values, s.engine.globals]

section
variable (plain : s.sink = .plain) {p : Page} (given : p.refusal? = none) {o : RenderOptions}
include plain given

theorem pageAlone (alone : p.layout? o.layout = none) (values : Layer) (w : World) :
    (s.page p values o).on w =
      (s.nodes (s.start p) 0 (s.outermost p values) p.body).on
        { w with metadata := o.metadata } := by
  have changed : (modify fun w => { w with metadata := o.metadata } : Run Unit).on w =
      (.ok (), { w with metadata := o.metadata }) := rfl
  unfold Stage.page
  rw [Run.onBindOk changed, plain, given, alone]
  rfl

theorem pageOutput (alone : p.layout? o.layout = none) (values : Layer) (w : World) :
    (s.page p values o).output w =
      (s.nodes (s.start p) 0 (s.outermost p values) p.body).output
        { w with metadata := o.metadata } := by
  unfold Run.output
  rw [pageAlone plain given alone]

theorem pageInLayout {name : String} (asked : p.layout? o.layout = some name) (values : Layer)
    (w : World) :
    (s.page p values o).output w =
      (s.layout (s.start p) 0 [[], values, s.engine.globals] Position.start.line
        (layoutProps p.data name) p.body).output { w with metadata := o.metadata } := by
  have changed : (modify fun w => { w with metadata := o.metadata } : Run Unit).on w =
      (.ok (), { w with metadata := o.metadata }) := rfl
  unfold Run.output Stage.page
  rw [Run.onBindOk changed, plain, given, asked]
  rfl

end

end Stage

theorem Session.renderOutput (s : Session) (p : Page) (values : Layer) (o : RenderOptions) :
    (s.render p values o .plain).1.output =
      (Stage.page (s.stage .plain) p values o).output
        { cache := s.cache, objects := s.objects } := rfl

theorem Session.renderPrints (s : Session) {stage : Stage}
    (here : stage = (s.stage .plain)) {p : Page} (given : p.refusal? = none)
    {o : RenderOptions} (alone : p.layout? o.layout = none) {values : Layer} {text : String}
    {notes : List Chunk}
    (prints : Run.Prints (fun _ => True)
      (stage.nodes (stage.start p) 0 (stage.outermost p values) p.body) text notes) :
    (s.render p values o .plain).1.output = .ok text ∧
      (s.render p values o .plain).1.chunks.filter Chunk.isComment = notes := by
  subst here
  obtain ⟨output, comments⟩ := prints.output
    (w := { metadata := o.metadata, cache := s.cache, objects := s.objects }) trivial rfl
  have page := Stage.pageAlone (s := (s.stage .plain)) rfl given alone values
    { cache := s.cache, objects := s.objects }
  rw [renderOutput, Stage.pageOutput rfl given alone]
  refine ⟨output, Eq.trans ?_ comments⟩
  exact congrArg (fun r => r.2.chunks.reverse.filter Chunk.isComment) page

end Medley
