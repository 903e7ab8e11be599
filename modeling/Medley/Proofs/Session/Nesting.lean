import Mathlib.Data.Seq.Basic
import Medley.Proofs.Session.Wrappers

/-! Templates in templates. In a chain every template is text around a reference to the next one; it
may end or go on for ever, and come back to templates that were in it before. As many are nested
as the limit allows. The reference to one more leaves out that template and nothing else. -/
namespace Medley
open Stream' (Seq)

def Reference.kind : Reference → Kind
  | .component _ => .component
  | .embed _ => .embed

inductive Node.StandsFor : Node Value → Reference → Prop where
  | embed {pos name props}
      (valued : ∀ e ∈ props, ∀ (s : Stage) scope, ∃ v, s.argument scope e.2 = .ok v) :
      StandsFor (.embed pos name props) (.embed name)
  | component {pos name props} (other : name ≠ slotTag) :
      StandsFor (.component pos name props []) (.component name)

theorem Node.StandsFor.moved {n m : Node Value} {r : Reference} (refers : n.StandsFor r)
    (same : m.unplaced = n.unplaced) : m.StandsFor r := by
  cases refers with
  | embed valued =>
    cases m <;> cases same
    exact .embed valued
  | component other =>
    cases m with
    | component _ _ _ children =>
      cases children <;> cases same
      exact .component other
    | _ => cases same

/- A tag for a partial whose arguments have values, or for a component that is closed at once, as
it is read wherever it stands. -/
inductive Reference.Tagged (tag : String) : Reference → Prop where
  | embed {name} (props) (reads : ∀ t, Mark.Reads tag.toList t (.embed name props))
      (valued : ∀ e ∈ props, ∀ (s : Stage) scope, ∃ v, s.argument scope e.2 = .ok v) :
      Tagged tag (.embed name)
  | component {name} (props width positive)
      (reads : ∀ t, Mark.Reads tag.toList t (.element name props width 0 positive))
      (other : name ≠ Node.slotTag) : Tagged tag (.component name)

namespace Reference
variable {tag : String} {r : Reference}

theorem taggedEmbed {name : String} (named : Token.isName name.toList = true) :
    Tagged (String.ofList (Written.embedTag name [])) (.embed name) := by
  refine .embed [] (fun t => ?_) (List.forall_mem_nil _)
  rw [String.toList_ofList]
  exact Mark.readsEmbed named ⟨by simp, by simp, by simp⟩ t

theorem taggedComponent {name : String} (tag : SoundTag name) (other : name ≠ Node.slotTag) :
    Tagged (String.ofList (Written.elementStart name [] true)) (.component name) := by
  refine .component [] _ (Mark.elementStartPos name [] true) (fun t => ?_) other
  rw [String.toList_ofList]
  exact Mark.readsClosed tag ⟨by simp, by simp⟩ t

theorem Tagged.node (tagged : r.Tagged tag) :
    (∀ t, Mark.Stops (tag.toList ++ t)) ∧ ∃ n : Node Value, n.StandsFor r ∧ n.isText = false ∧
      ∀ debug pos b t, Builder.Adds debug pos b tag.toList t [n] := by
  cases tagged with
  | @embed name props reads valued =>
    exact ⟨fun t => (reads t).stops nofun, .embed .start name props, .embed valued, rfl,
      fun debug pos b t => Builder.addsMark (reads t) (.embed pos name props) rfl rfl rfl⟩
  | @component name props width positive reads other =>
    refine ⟨fun t => (reads t).stops nofun, .component .start name props [], .component other, rfl,
      fun debug pos b t =>
        Builder.addsMark (reads t) (.component pos name props []) rfl rfl ?_⟩
    simp only [Builder.take, List.take_zero, Builder.readNil]
    rfl

theorem Tagged.undashed (tagged : r.Tagged tag) (t : List Char) :
    ∀ c ∈ (tag.toList ++ t).head?, c ≠ '-' := by
  have stops := tagged.node.1 t
  rintro c head rfl
  cases same : tag.toList ++ t with
  | nil =>
    rw [same] at head
    cases head
  | cons d rest =>
    rw [same] at head stops
    cases head
    cases stops

end Reference

structure Link where
  reference : Reference
  tag : String
  before : String
  after : String

namespace Link

structure Sound (link : Link) : Prop where
  tagged : link.reference.Tagged link.tag
  before : Template.Bare link.before
  after : Template.Bare link.after

def between (before : String) (next : Option Link) (after : String) : String :=
  before ++ (next.elim "" tag ++ after)

/- What the templates of a chain put around what is inside all of them. -/
def around (links : List Link) (inside : String) : String :=
  String.join (links.map before) ++ (inside ++ String.join (links.reverse.map after))

theorem aroundCons (link : Link) (links : List Link) (inside : String) :
    around (link :: links) inside = link.before ++ (around links inside ++ link.after) := by
  simp [around, String.join_append, String.append_assoc]

inductive Nodes (before after : String) : Option Link → List (Node Value) → Prop where
  | last {ns} (texts : ∀ n ∈ ns, n.isText = true)
      (words : String.join (ns.map Node.wording) = before ++ after) : Nodes before after none ns
  | inner {next : Link} {n ns} (refers : n.StandsFor next.reference)
      (amid : Node.Amid before n after ns) : Nodes before after (some next) ns

theorem read (e : Engine) {before after : String} (next : Option Link)
    (bareA : Template.Bare before) (bareB : Template.Bare after)
    (tagged : ∀ link ∈ next, link.reference.Tagged link.tag) (name filename : Option String) :
    ∃ t, e.read (between before next after) name filename = .ok t ∧
      t.metadata.layout = none ∧ Nodes before after next t.nodes := by
  have whole : Frontmatter.split (between before next after).toList = none := by
    refine Frontmatter.splitNone fun c first => ?_
    rw [between, String.toList_append, String.toList_append] at first
    cases same : before.toList with
    | cons d rest =>
      rw [same] at first
      cases first
      rintro rfl
      exact bareA _ (same ▸ List.mem_cons_self) (by simp)
    | nil =>
      rw [same] at first
      cases next with
      | some next => exact (tagged next rfl).undashed _ c first
      | none =>
        rintro rfl
        exact bareB _ (List.mem_of_mem_head? first) (by simp)
  obtain ⟨t, pos, read, nodes, _, layout⟩ := e.readParts (.bare whole) name filename
  refine ⟨t, read, layout, ?_⟩
  rw [nodes, between]
  cases next with
  | none =>
    have plain : ∀ c ∈ (before ++ after).toList, c ≠ '\x7b' ∧ c ≠ '<' := fun c member => by
      rw [String.toList_append] at member
      exact (List.mem_append.mp member).elim (bareA.plain c) (bareB.plain c)
    obtain ⟨texts, words⟩ := Node.textReading plain e.debug pos
    simp only [Option.elim_none, String.empty_append]
    exact .last texts words
  | some next =>
    obtain ⟨stops, n, refers, marked, reads⟩ := (tagged next rfl).node
    simp only [Option.elim_some, String.toList_append]
    exact .inner refers (Node.amidReading marked stops reads bareA.plain bareB.plain e.debug pos)

end Link

def Engine.Mounts (e : Engine) (chain : Seq Link) : Prop :=
  ∀ i link, chain.get? i = some link → link.Sound ∧
    e.Registers link.reference.kind link.reference.name
      (Link.between link.before (chain.get? (i + 1)) link.after)

namespace Engine
variable {e : Engine} {first : Link} {chain : Seq Link}

theorem Mounts.rest (mounts : e.Mounts (.cons first chain)) : e.Mounts chain :=
  fun i link here => mounts (i + 1) link here

theorem Mounts.tagged (mounts : e.Mounts chain) :
    ∀ link ∈ chain.get? 0, link.reference.Tagged link.tag :=
  fun link here => (mounts 0 link here).1.tagged

theorem Mounts.found (mounts : e.Mounts (.cons first chain)) :
    ∃ t, (e.registered.ofKind first.reference.kind).lookup first.reference.name = some t ∧
      Link.Nodes first.before first.after (chain.get? 0) t.nodes := by
  obtain ⟨sound, t, read, found⟩ := mounts 0 first rfl
  obtain ⟨t', reading, _, nodes⟩ := Link.read e _ sound.before sound.after mounts.rest.tagged
    (some first.reference.name) none
  obtain rfl := Except.ok.inj (read.symm.trans reading)
  exact ⟨t, found, nodes⟩

end Engine

namespace Stage
variable {s : Stage} {n : Node Value} {r : Reference}

theorem argumentsValued {props : List (String × String)} (scope : Scope)
    (valued : ∀ e ∈ props, ∀ (s : Stage) scope, ∃ v, s.argument scope e.2 = .ok v) :
    ∃ layer, (props.mapM fun e => (s.argument scope e.2).map fun v => (e.1, v)) = .ok layer := by
  induction props with
  | nil => exact ⟨[], rfl⟩
  | cons e props ih =>
    obtain ⟨here, rest⟩ := List.forall_mem_cons.mp valued
    obtain ⟨v, value⟩ := here s scope
    obtain ⟨layer, values⟩ := ih rest
    refine ⟨(e.1, v) :: layer, ?_⟩
    rw [List.mapM_cons, value, values]
    rfl

theorem refersFull (refers : n.StandsFor r) {c : RenderContext} (full : c.depthExceeded = true)
    (level : Nat) (scope : Scope) : s.node c level scope n = s.exceeded c r.kind r.name := by
  cases refers with
  | embed =>
    rw [node, dif_pos full]
    rfl
  | component other =>
    rw [node, if_neg other, dif_pos full]
    rfl

theorem refersNode (refers : n.StandsFor r) {c : RenderContext} (room : c.depthExceeded = false)
    {t : Template} (found : (s.engine.registered.ofKind r.kind).lookup r.name = some t)
    (level : Nat) (scope : Scope) : ∃ level' scope',
      s.node c level scope n = s.nodes (c.child r.name n.pos.line) level' scope' t.nodes := by
  have resolved : s.engine.resolve? r.kind r.name = pure (some t) := by
    rw [Engine.resolve?, found]
  cases refers with
  | embed valued =>
    obtain ⟨layer, values⟩ := argumentsValued scope valued
    refine ⟨level, layer :: scope, ?_⟩
    dsimp only [Reference.kind, Reference.name] at resolved
    rw [node, dif_neg (by simp [room]), resolved, pure_bind]
    dsimp only
    rw [values]
    rfl
  | component other => exact ⟨_, _, nodeComponent other room resolved⟩

/- The comment on the template of a chain that is one too many. -/
def refusals (c : RenderContext) (chain : Seq Link) (room : Nat) : List Chunk :=
  if c.debug then
    (chain.get? room).toList.map fun link =>
      refusal c.maxDepth link.reference.kind link.reference.name
  else []

theorem chainPrints (plain : s.sink = .plain) (room : Nat) {first : Link} {chain : Seq Link}
    (mounts : s.engine.Mounts (.cons first chain)) (refers : n.StandsFor first.reference)
    {c : RenderContext} (remaining : c.remaining = room) (level : Nat) (scope : Scope) :
    let notes := refusals c (.cons first chain) room
    Run.Prints (fun _ => True) (s.node c level scope n)
      (Link.around ((Seq.cons first chain).take room) (String.join (notes.map Chunk.text)))
      notes := by
  -- on the room that is left: where there is some, the template puts its text around what the
  -- chain after it prints
  induction room generalizing first chain n c level scope with
  | zero =>
    dsimp only
    rw [refersFull refers (RenderContext.full remaining), Seq.take_zero]
    simp only [Link.around, List.map_nil, List.reverse_nil, String.join_nil, String.empty_append,
      String.append_empty]
    exact exceededPrints plain c _ _ rfl
  | succ room ih =>
    dsimp only
    obtain ⟨t, found, nodes⟩ := mounts.found
    obtain ⟨level', scope', step⟩ :=
      refersNode (s := s) refers (RenderContext.roomy remaining) found level scope
    have deeper := RenderContext.childRoom remaining first.reference.name n.pos.line
    rw [step, Seq.take_succ_cons, Link.aroundCons]
    generalize same : chain.get? 0 = next at nodes
    cases nodes with
    | last texts words =>
      obtain rfl := Seq.get?_zero_eq_none.mp same
      have silent : refusals c (.cons first .nil) (room + 1) = [] := ite_self _
      rw [silent, Seq.take_nil]
      have prints := textsPrint (C := fun _ => True) (c.child first.reference.name n.pos.line)
        level' scope' plain texts
      rw [words] at prints
      simpa [Link.around] using prints
    | inner refers' amid =>
      rw [Seq.head_eq_some same] at mounts ⊢
      exact amidPrints plain amid _ _ _ fun m moved =>
        ih mounts.rest (refers'.moved moved) deeper level' scope'

end Stage

namespace Session
variable {s : Session}

/-- Of a chain as many templates are nested as the limit allows. With diagnostics one comment is
left in the place of the next one, if there is any. -/
theorem nestingCut {first : Link} {chain : Seq Link} (mounts : s.engine.Mounts (.cons first chain))
    (name filename : Option String) :
    ∃ t, s.engine.read first.tag name filename = .ok t ∧
      ∀ (limit : Int) values o, o.layout = none →
        let answer := ((s.limited limit).render (.template t) values o .plain).1
        let links := (Seq.cons first chain).take limit.toNat
        let notes := if s.engine.debug then
            ((Seq.cons first chain).get? limit.toNat).toList.map fun link =>
              Stage.refusal limit link.reference.kind link.reference.name
          else []
        answer.output = .ok (String.join (links.map Link.before) ++
            (String.join (notes.map Chunk.text) ++ String.join (links.reverse.map Link.after))) ∧
          answer.chunks.filter Chunk.isComment = notes := by
  have empty : Template.Bare "" := by decide
  obtain ⟨t, read, layout, nodes⟩ :=
    Link.read s.engine (some first) empty empty mounts.tagged name filename
  have whole : Link.between "" (some first) "" = first.tag := by simp [Link.between]
  rw [whole] at read
  refine ⟨t, read, fun limit values o free => ?_⟩
  dsimp only
  cases nodes with
  | inner refers amid =>
    let stage := Stage.limited s.engine s.host limit
    have prints := Stage.amidPrints (s := stage) rfl amid (stage.start (.template t)) 0
      (stage.outermost (.template t) values) fun m moved =>
        Stage.chainPrints rfl limit.toNat (fun i link here => mounts i link here)
          (refers.moved moved) (congrArg Int.toNat (Int.sub_zero limit)) _ _
    rw [String.empty_append, String.append_empty] at prints
    have alone : (Page.template t).layout? o.layout = none := by
      unfold Page.layout? Page.ownLayout?
      dsimp only
      rw [free, layout]
      rfl
    exact renderPrints (s.limited limit) rfl (p := .template t) rfl alone prints

end Session

namespace Link

def outer : Link := ⟨.component "A", "<A/>", "(", ")"⟩

def inner : Link := ⟨.embed "b", "\x7b\x7b> b \x7d\x7d", "[", "]"⟩

theorem outerSound : outer.Sound := by
  have tag : SoundTag "A" := ⟨'A', [], rfl, rfl, List.forall_mem_nil _⟩
  have same : "<A/>" = String.ofList (Written.elementStart "A" [] true) := by decide
  refine ⟨?_, by decide, by decide⟩
  rw [outer, same]
  exact Reference.taggedComponent tag (by decide)

theorem innerSound : inner.Sound := by
  have same : "\x7b\x7b> b \x7d\x7d" = String.ofList (Written.embedTag "b" []) := by decide
  refine ⟨?_, by decide, by decide⟩
  rw [inner, same]
  exact Reference.taggedEmbed (by decide)

def turn : Nat → Link
  | 0 => outer
  | 1 => inner
  | i + 2 => turn i

theorem turns (i : Nat) :
    turn i = outer ∧ turn (i + 1) = inner ∨ turn i = inner ∧ turn (i + 1) = outer := by
  induction i with
  | zero => exact .inl ⟨rfl, rfl⟩
  | succ i ih => exact ih.symm.imp (fun h => ⟨h.2, h.1⟩) fun h => ⟨h.2, h.1⟩

def ring : Seq Link := .ofStream fun i => turn (i + 1)

end Link

namespace Session

open Link (outer inner ring)

def nested (next : Option Link) : Session :=
  let s : Session := { engine := { debug := true }, host := Stage.echoHost }
  (s.registering .component "A" (Link.between "(" (some inner) ")")).registering .embed "b"
    (Link.between "[" next "]")

theorem nestedRegisters (next : Option Link)
    (tagged : ∀ link ∈ next, link.reference.Tagged link.tag) :
    (nested next).engine.debug = true ∧
      (nested next).engine.Registers .component "A" (Link.between "(" (some inner) ")") ∧
      (nested next).engine.Registers .embed "b" (Link.between "[" next "]") := by
  let s : Session := { engine := { debug := true }, host := Stage.echoHost }
  obtain ⟨t, read, _⟩ := Link.read s.engine (some inner) Link.outerSound.before
    Link.outerSound.after (fun _ here => Option.some.inj here ▸ Link.innerSound.tagged) (some "A")
    none
  have one := s.registeringAdds (by decide : Kind.component ≠ .page) read
  obtain ⟨u, reading, _⟩ := Link.read (s.registering .component "A" _).engine next
    Link.innerSound.before Link.innerSound.after tagged (some "b") none
  have two := registeringAdds _ (by decide : Kind.embed ≠ .page) reading
  exact ⟨two.debug.trans one.debug, two.kept _ _ _ (.inl (by decide)) one.registers, two.registers⟩

theorem ringMounts : (nested (some outer)).engine.Mounts (.cons outer ring) := by
  obtain ⟨_, component, embed⟩ := nestedRegisters (some outer)
    fun _ here => Option.some.inj here ▸ Link.outerSound.tagged
  have found : ∀ i, (Seq.cons outer ring).get? i = some (Link.turn i) := by
    rintro (_ | i) <;> rfl
  intro i link here
  rw [found] at here ⊢
  cases here
  rcases Link.turns i with ⟨now, next⟩ | ⟨now, next⟩
  · rw [now, next]
    exact ⟨Link.outerSound, component⟩
  · rw [now, next]
    exact ⟨Link.innerSound, embed⟩

theorem pairMounts : (nested none).engine.Mounts (.cons outer (.cons inner .nil)) := by
  obtain ⟨_, component, embed⟩ := nestedRegisters none nofun
  rintro (_ | _ | i) link here <;> cases here
  · exact ⟨Link.outerSound, component⟩
  · exact ⟨Link.innerSound, embed⟩

/- Three times in each other the two leave a comment in the middle, and once they do not. -/
theorem nestedCut :
    ((nested (some outer)).engine.Mounts (.cons outer ring) ∧
      ∃ t, (nested (some outer)).engine.read "<A/>" none none = .ok t ∧
        (((nested (some outer)).limited 3).render (.template t) [] {} .plain).1.output = .ok
          "([(<!-- motif M-RUN-005: Maximum nesting depth (3) exceeded at partial 'b' -->)])") ∧
    ((nested none).engine.Mounts (.cons outer (.cons inner .nil)) ∧
      ∃ t, (nested none).engine.read "<A/>" none none = .ok t ∧
        (((nested none).limited 3).render (.template t) [] {} .plain).1.output = .ok "([])") := by
  obtain ⟨debug, _⟩ := nestedRegisters (some outer)
    fun _ here => Option.some.inj here ▸ Link.outerSound.tagged
  obtain ⟨debug', _⟩ := nestedRegisters none nofun
  obtain ⟨t, read, cut⟩ := nestingCut ringMounts none none
  obtain ⟨t', reading, whole⟩ := nestingCut pairMounts none none
  have output := (cut 3 [] {} rfl).1
  have output' := (whole 3 [] {} rfl).1
  rw [debug] at output
  rw [debug'] at output'
  exact ⟨⟨ringMounts, t, read, output.trans (congrArg Except.ok rfl)⟩,
    pairMounts, t', reading, output'.trans (congrArg Except.ok rfl)⟩

end Session
end Medley
