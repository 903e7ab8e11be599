import Medley.Proofs.Render.Alike
import Medley.Proofs.Render.Output
import Medley.Proofs.Template.Siblings

/-! Content in a wrapper. A template that is text around the content it is given puts out the
content as the content alone would be put out, between its own text. It is rendered one template
deeper, under its own scope, above output that is there already; where one template more can be
nested none of this is seen in it. -/
namespace Medley

structure RenderContext.Level (c c' : RenderContext) : Prop where
  quiet : c.debug = false
  quiet' : c'.debug = false
  room : c'.maxDepth - c'.depth = c.maxDepth - c.depth

namespace RenderContext
variable {c : RenderContext} {room : Nat}

theorem full (used : c.remaining = 0) : c.depthExceeded = true := by
  simp only [remaining] at used
  simp only [depthExceeded, decide_eq_true_eq]
  omega

theorem roomy (more : c.remaining = room + 1) : c.depthExceeded = false := by
  simp only [remaining] at more
  simp only [depthExceeded, decide_eq_false_iff_not]
  omega

theorem childRoom (more : c.remaining = room + 1) (name : String) (line : Int) :
    (c.child name line).remaining = room := by
  simp only [remaining, child] at more ⊢
  omega

end RenderContext

theorem Stage.levelEven : Even RenderContext.Level where
  room c c' level := by
    have room := level.room
    unfold RenderContext.depthExceeded
    rw [decide_eq_decide]
    omega
  limit c c' level := .inr ⟨level.quiet, level.quiet'⟩
  child c c' name line level := by
    refine ⟨level.quiet, level.quiet', ?_⟩
    have room := level.room
    simp only [RenderContext.child]
    omega

/- The first output is the second one above what was there before. -/
def Chunk.Over (before cs cs' : List Chunk) : Prop := cs = cs' ++ before

/-- Functions of the host program read nothing of a context but the metadata. -/
def Host.Aloof (h : Host) : Prop := ∀ c c', h.Blind c c'

def Engine.limited (e : Engine) (limit : Int) : Engine := { e with maxDepth := limit }

theorem Engine.limitedAlike (e : Engine) (n m : Int) :
    (e.limited n).Alike .all Eq (e.limited m) :=
  alikeSame (fun _ _ _ => rfl) fun _ _ _ => rfl

theorem Engine.resolveRegistered {e : Engine} {kind : Kind} {name : String} {t : Template}
    (found : (e.registered.ofKind kind).lookup name = some t) (limit : Int) :
    (e.limited limit).resolve? kind name = pure (some t) := by
  have known : ((e.limited limit).registered.ofKind kind).lookup name = some t := found
  rw [resolve?, known]

namespace Stage

abbrev limited (e : Engine) (h : Host) (limit : Int) : Stage := .of (e.limited limit) h .plain

variable {e : Engine} {h : Host} (aloof : h.Aloof) (n m : Int)
include aloof

theorem lockstepOver (before : List Chunk) :
    Lockstep (World.Alike (Chunk.Over before) .all Eq) RenderContext.Level .all
      (limited e h n) (limited e h m) := by
  have emits : ∀ chunk, Run.Matches (World.Alike (Chunk.Over before) .all Eq)
      (Run.emit .plain chunk) (Run.emit .plain chunk) fun _ _ => True := fun chunk =>
    Run.emitPlain fun cs cs' same => congrArg (List.cons chunk) same
  refine lockstepOf Bounds.allClosed
    (fun _ _ _ _ _ _ _ => ⟨fun _ _ => trivial, fun _ _ => trivial⟩) (e.limitedAlike n m) levelEven
    (fun c c' _ => aloof c c') rfl rfl rfl (fun chunk _ => emits chunk)
    (fun c c' code message level => ?_) fun _ _ _ _ _ => emits _
  unfold comment
  rw [level.quiet, level.quiet']
  exact .pure trivial

theorem nodesOver {c c' : RenderContext} (even : c.Level c') (level : Nat) (scope : Scope)
    (ns : List (Node Value)) (before : List Chunk) {w : World} (fresh : w.chunks = []) :
    (((limited e h n).nodes c level scope ns).on { w with chunks := before }).1 =
        (((limited e h m).nodes c' level scope ns).on w).1 ∧
      (((limited e h n).nodes c level scope ns).on { w with chunks := before }).2.chunks =
        (((limited e h m).nodes c' level scope ns).on w).2.chunks ++ before := by
  have related : World.Alike (Chunk.Over before) .all Eq { w with chunks := before } w :=
    ⟨by rw [Chunk.Over, fresh, List.nil_append], rfl, fun _ _ => trivial, rfl, rfl⟩
  obtain ⟨alike, results⟩ := nodesMatch (lockstepOver aloof n m before) even level
    (fun _ _ _ _ => trivial) ns (fun _ _ => trivial) _ _ related
  exact ⟨((results.imp fun _ _ _ => rfl).eq).symm, alike.chunks⟩

end Stage

structure Template.Wraps (t : Template) (path before after : String) : Prop where
  nodes : ∃ front pos back, t.nodes = front ++ .lookup pos path false [] :: back ∧
    (∀ n ∈ front, n.isText = true) ∧ (∀ n ∈ back, n.isText = true) ∧
      String.join (front.map Node.wording) = before ∧ String.join (back.map Node.wording) = after
  layout : t.metadata.layout = none

namespace Stage
variable {s : Stage} {c : RenderContext} {level : Nat} {scope : Scope}

/- Content is rendered where it is put, under the scope and level it was made in. -/
theorem nodeFragment {pos : Position} {path : String} {inner : Nat} {content : List (Node Value)}
    {under : Scope} (found : s.resolve scope path = .fragment inner content under)
    (written : inner < level) :
    s.node c level scope (.lookup pos path false []) = s.nodes c inner under content := by
  have value : s.applyFilters c scope [] (s.resolve scope path) =
      pure (.fragment inner content under) := by rw [found]; rfl
  have output : s.output? c (pure (.fragment inner content under)) =
      pure (some (.fragment inner content under)) := rfl
  rw [node, value, Stage.written, output, pure_bind]
  dsimp only
  rw [if_pos written]

theorem nodeComponent {pos : Position} {name : String} {props : Layer}
    {children : List (Node Value)} {t : Template} (other : name ≠ Node.slotTag)
    (room : c.depthExceeded = false)
    (found : s.engine.resolve? .component name = pure (some t)) :
    s.node c level scope (.component pos name props children) =
      s.nodes (c.child name pos.line) (level + 1)
        (componentLayer level props children scope :: scope) t.nodes := by
  rw [node, if_neg other, dif_neg (by simp [room]), found, pure_bind]

theorem setPropSome {α : Type} (props : List (String × α)) (key : String) (v : α) :
    (setProp props key v).isEmpty = false := by
  cases props with
  | nil => rfl
  | cons e props =>
    rw [setProp]
    split <;> rfl

def layoutScope (level : Nat) (props : Layer) (children : List (Node Value)) (scope : Scope) :
    Scope :=
  let content := Value.fragment level children (props :: scope)
  props :: [("content", content), ("$content", content)] :: scope

theorem layoutLast {line : Int} {props : Layer} {children : List (Node Value)} {t : Template}
    (room : c.depthExceeded = false)
    (found : s.engine.resolve? .layout (Value.layoutName props) = pure (some t))
    (last : ∀ parent, t.metadata.layout = some parent →
      parent.isEmpty = true ∨ parent = Value.layoutName props) :
    s.layout c level scope line props children =
      s.nodes (c.child (Value.layoutName props) line) (level + 1)
        (layoutScope level props children scope) t.nodes := by
  rw [layout]
  dsimp only
  rw [dif_neg (by simp [room]), found, pure_bind]
  dsimp only
  cases parent : t.metadata.layout with
  | none => rfl
  | some name =>
    dsimp only
    rw [if_pos (by simpa using last name parent)]
    rfl

theorem layoutNext {line : Int} {props : Layer} {children : List (Node Value)} {t : Template}
    (room : c.depthExceeded = false)
    (found : s.engine.resolve? .layout (Value.layoutName props) = pure (some t)) {parent : String}
    (next : t.metadata.layout = some parent) (more : parent.isEmpty = false)
    (other : parent ≠ Value.layoutName props) :
    s.layout c level scope line props children =
      s.layout (c.child (Value.layoutName props) line) (level + 1)
        (layoutScope level props children scope) line (layoutProps t.metadata.frontmatter parent)
        t.nodes := by
  rw [layout]
  dsimp only
  rw [dif_neg (by simp [room]), found, pure_bind]
  dsimp only
  rw [next]
  dsimp only
  rw [if_neg (by simp [more, other])]
  rfl

theorem nodeLayout {pos : Position} {props : Layer} {children : List (Node Value)} {t : Template}
    (room : c.depthExceeded = false) (outermost : t.metadata.layout = none)
    (found : s.engine.resolve? .layout (Value.layoutName props) = pure (some t)) :
    s.node c level scope (.layout pos props children) =
      s.nodes (c.child (Value.layoutName props) pos.line) (level + 1)
        (layoutScope level props children scope) t.nodes := by
  rw [node]
  exact layoutLast room found fun parent named => by rw [outermost] at named; cases named

theorem nodesSingle (n : Node Value) : s.nodes c level scope [n] = s.node c level scope n := by
  rw [nodes, nodes]
  exact bind_pure _

theorem resolveName {name : String} (named : Token.isName name.toList = true) {v : Value}
    (found : Scope.lookup? scope name = some v) : s.resolve scope name = v := by
  unfold resolve Value.resolve
  rw [Text.trimWhole (Mark.nameBegins named) (Mark.nameEnds named)]
  have written : name.toList.isEmpty = false := by
    cases same : name.toList with
    | nil => rw [same] at named; cases named
    | cons => rfl
  dsimp only
  rw [written, String.ofList_toList, found]
  rfl

theorem resolveChildren (props : Layer) (children : List (Node Value)) :
    s.resolve (componentLayer level props children scope :: scope) "$children" =
      .fragment level children scope := by
  refine resolveName (by decide) ?_
  unfold Scope.lookup? componentLayer
  rw [List.findSome?_cons, lookupSetProp]

theorem resolveContent {props : Layer} (own : props.lookup "content" = none)
    (children : List (Node Value)) :
    s.resolve (layoutScope level props children scope) "content" =
      .fragment level children (props :: scope) := by
  refine resolveName (by decide) ?_
  unfold Scope.lookup? layoutScope
  rw [List.findSome?_cons, own]
  rfl

/- A wrapper puts its own text around what its content puts out alone. -/
theorem wrapsOutput {e : Engine} {h : Host} (aloof : h.Aloof) {n m : Int} {t : Template}
    {path before after : String} (wraps : t.Wraps path before after) {c' : RenderContext}
    (even : c.Level c') {inner : Nat} {content : List (Node Value)} {under : Scope}
    (found : (limited e h n).resolve scope path = .fragment inner content under)
    (written : inner < level) {w : World} (fresh : w.chunks = []) :
    ((limited e h n).nodes c level scope t.nodes).output w =
      (((limited e h m).nodes c' inner under content).output w).map fun text =>
        before ++ (text ++ after) := by
  obtain ⟨front, pos, back, inside, frontTexts, backTexts, rfl, rfl⟩ := wraps.nodes
  have first := textsWrite (s := limited e h n) c level scope rfl frontTexts w
  have last := textsWrite (s := limited e h n) c level scope rfl backTexts
  obtain ⟨result, chunks⟩ :=
    nodesOver aloof n m even inner under content (Node.literals front).reverse fresh
  unfold Run.output
  rw [inside, nodesAppend, nodes, nodeFragment found written, Run.onBindOk first, fresh,
    List.append_nil]
  cases left : ((limited e h n).nodes c inner under content).on
      { w with chunks := (Node.literals front).reverse } with
  | mk answer w' =>
    rw [left] at result chunks
    dsimp only at result chunks
    rw [← result]
    cases answer with
    | error fault =>
      rw [Run.onBindError left]
      rfl
    | ok =>
      rw [Run.onBindOk left, last, chunks]
      simp [Except.map, String.join_append, Node.literalsText]

end Stage

theorem Frontmatter.splitNone {s : List Char} (other : ∀ c ∈ s.head?, c ≠ '-') :
    split s = none := by
  have unfenced : fence? s = none := by
    unfold fence? Text.dropStart?
    cases s with
    | nil => rfl
    | cons c s =>
      have apart : ('-' == c) = false := by simpa using (other c rfl).symm
      simp [List.isPrefixOf, apart]
  unfold split
  rw [unfenced]
  rfl

def Template.Bare (s : String) : Prop := ∀ c ∈ s.toList, c ∉ ['\x7b', '<', '-']

-- by the characters of the text, not by all there are
instance (s : String) : Decidable (Template.Bare s) :=
  List.decidableBAll (fun c => c ∉ ['\x7b', '<', '-']) s.toList

def Template.around (a path b : String) : String :=
  a ++ ("\x7b\x7b\x7b " ++ path ++ " \x7d\x7d\x7d") ++ b

namespace Template
variable {a b path : String}

theorem aroundChars (a path b : String) : (around a path b).toList =
    a.toList ++ (Written.outputTag .braces false (Written.expression path [] []) ++ b.toList) := by
  simp [around, Written.outputTag, Written.outputStart, Written.outputEnd, Written.expression,
    Text.spaced, Token.piped]

theorem aroundBody (bare : Bare a) : Frontmatter.split (around a path b).toList = none := by
  rw [aroundChars]
  refine Frontmatter.splitNone fun c first => ?_
  cases same : a.toList with
  | nil =>
    rw [same] at first
    cases first
    decide
  | cons d rest =>
    rw [same] at first
    cases first
    intro dash
    exact bare _ (same ▸ List.mem_cons_self) (by simp [dash])

theorem Bare.plain {s : String} (bare : Bare s) : ∀ c ∈ s.toList, c ≠ '\x7b' ∧ c ≠ '<' := by
  intro c member
  have apart := bare c member
  simp only [List.mem_cons, List.not_mem_nil, or_false, not_or] at apart
  exact ⟨apart.1, apart.2.1⟩

theorem aroundAmid (name : Token.isName path.toList = true) (bareA : Bare a) (bareB : Bare b)
    (debug : Bool) (pos : Position) :
    Node.Amid a (.lookup .start path false []) b
      (Reading.ofSource debug pos (around a path b).toList).nodes := by
  rw [aroundChars]
  refine Node.amidReading rfl (fun _ => Mark.stopsMarker (Written.beginsOutput ..))
    (fun debug pos b t => ⟨[.lookup pos path false []], rfl, ?_⟩) bareA.plain bareB.plain debug pos
  exact Builder.readLookup debug pos b .braces false name (List.forall_mem_nil _) t

theorem readWraps (name : Token.isName path.toList = true) (bareA : Bare a) (bareB : Bare b)
    (o : ReadOptions) :
    ∃ out, read o (around a path b) = .ok out ∧ out.template.Wraps path a b := by
  obtain ⟨front, m, back, nodes, here, rest⟩ := aroundAmid name bareA bareB o.debug
    ⟨1 + o.lineOffset + (0 : Nat), o.columnOffset⟩
  obtain ⟨pos, rfl⟩ : ∃ pos, m = .lookup pos path false [] := by
    cases m <;> cases here
    exact ⟨_, rfl⟩
  refine ⟨assemble o [] 0 (around a path b).toList, ?_, ⟨front, pos, back, nodes, rest⟩, rfl⟩
  unfold read
  dsimp only
  rw [aroundBody bareA, ite_self]
  rfl

end Template

/- The page data in front of a source, and what comes after them. -/
inductive Frontmatter.Parts (source : String) : Layer → String → Prop where
  | bare (whole : split source.toList = none) : Parts source [] source
  | fenced (front : Split) {found : Layer} {body : String}
      (apart : split source.toList = some front) (read : data front.block = .ok found)
      (rest : body.toList = front.body) : Parts source found body

theorem Engine.readParts (e : Engine) {source body : String} {data : Layer}
    (parts : Frontmatter.Parts source data body) (name filename : Option String) :
    ∃ t pos, e.read source name filename = .ok t ∧
      t.nodes = (Reading.ofSource e.debug pos body.toList).nodes ∧
        t.metadata.frontmatter = data ∧ t.metadata.layout = layoutOf data := by
  unfold read Template.read
  dsimp only
  rw [if_pos rfl]
  cases parts with
  | bare whole =>
    rw [whole]
    exact ⟨_, _, rfl, rfl, rfl, rfl⟩
  | fenced _ apart read rest =>
    rw [apart]
    dsimp only
    rw [read, rest]
    exact ⟨_, _, rfl, rfl, rfl, rfl⟩

def Engine.Registers (e : Engine) (kind : Kind) (name source : String) : Prop :=
  ∃ t, e.read source (some name) none = .ok t ∧ (e.registered.ofKind kind).lookup name = some t

namespace Engine
variable {e : Engine} {kind kind' : Kind} {name name' source : String} {t : Template}

theorem registersNew (other : kind ≠ .page) (read : e.read source (some name) none = .ok t) :
    (e.register kind name t).Registers kind name source := by
  refine ⟨t, read, ?_⟩
  cases kind with
  | page => exact absurd rfl other
  | _ => exact lookupSetProp _ name t

theorem registeredOther (apart : kind ≠ kind' ∨ name ≠ name') :
    ((e.register kind' name' t).registered.ofKind kind).lookup name =
      (e.registered.ofKind kind).lookup name := by
  by_cases same : kind = kind'
  · have other := apart.resolve_left (not_not_intro same)
    subst same
    cases kind with
    | page => rfl
    | _ => exact lookupSetPropOther _ other t
  · cases kind <;> cases kind' <;> first | rfl | exact absurd rfl same

theorem Registers.kept (h : e.Registers kind name source) (apart : kind ≠ kind' ∨ name ≠ name') :
    (e.register kind' name' t).Registers kind name source := by
  obtain ⟨u, read, found⟩ := h
  exact ⟨u, read, (registeredOther apart).trans found⟩

theorem resolvedRegister (apart : kind ≠ kind' ∨ name ≠ name') (c : Cache) :
    (e.register kind' name' t).resolved c kind name = e.resolved c kind name := by
  unfold resolved
  rw [registeredOther apart]
  rfl

end Engine

theorem Stage.amidPrints {s : Stage} (plain : s.sink = .plain) {before after : String}
    {n : Node Value} {ns : List (Node Value)} (amid : Node.Amid before n after ns)
    (c : RenderContext) (level : Nat) (scope : Scope) {text : String} {notes : List Chunk}
    (inside : ∀ m, m.unplaced = n.unplaced →
      Run.Prints (fun _ => True) (s.node c level scope m) text notes) :
    Run.Prints (fun _ => True) (s.nodes c level scope ns) (before ++ (text ++ after)) notes := by
  obtain ⟨front, m, back, rfl, same, frontTexts, backTexts, rfl, rfl⟩ := amid
  have first := textsPrint (C := fun _ => True) c level scope plain frontTexts
  have last := textsPrint (C := fun _ => True) c level scope plain backTexts
  have whole := first.bind ((inside m same).bind last)
  rwa [← nodes, ← nodesAppend, List.nil_append, List.append_nil] at whole

end Medley
