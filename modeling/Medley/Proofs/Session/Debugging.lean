import Medley.Proofs.Session.Dependencies
import Medley.Proofs.Template.Quiet

/-! Diagnostics are all that debugging adds. Where no template that a page depends on has issues,
environments with diagnostics and without them resolve the same templates, and what the first one
writes is what the second one writes with comments in between. -/
namespace Medley

theorem Template.readTwins (o : ReadOptions) (source : String) :
    Agree Template.Twins
      ((Template.read { o with debug := false } source).map Template.Outcome.template)
      ((Template.read { o with debug := true } source).map Template.Outcome.template) := by
  cases wanted : Template.read { o with debug := true } source with
  | error fault =>
    rw [Template.readFails wanted]
    exact .error fault
  | ok out =>
    rw [Template.readText wanted]
    exact .ok (.read (Template.readText wanted) wanted)

namespace Engine
variable {e e' : Engine}

/- The same engine without diagnostics and with them; templates that were registered are read in
either way. -/
structure Debugs (e e' : Engine) : Prop where
  off : e.debug = false
  same : e' = { e with debug := true, registered := e'.registered }
  registered : ∀ kind name, Option.Rel Template.Twins ((e.registered.ofKind kind).lookup name)
    ((e'.registered.ofKind kind).lookup name)

theorem ifFoundAgree {α β : Type} {Q : α → β → Prop} {x : Except Fault α} {y : Except Fault β}
    (h : Agree Q x y) : Agree (Option.Rel Q) (ifFound x) (ifFound y) := by
  cases h with
  | ok h => exact .ok (.some h)
  | error fault =>
    simp only [ifFound]
    split
    · exact .ok .none
    · exact .error fault

theorem Debugs.kin (h : e.Debugs e') : e.Kin e' := by
  rw [h.same]
  exact ⟨rfl, rfl, rfl, rfl, rfl⟩

theorem Debugs.fetch (h : e.Debugs e') (kind : Kind) (name : String) :
    Agree Template.Twins (e.fetch kind name) (e'.fetch kind name) := by
  rw [h.same]
  unfold Engine.fetch
  dsimp only
  cases e.loader.source e.tree kind name with
  | error fault => exact .error _
  | ok found =>
    dsimp only [read]
    rw [h.off]
    exact Template.readTwins { name := some name, filename := found.2 } found.1

theorem Debugs.loaded (h : e.Debugs e') {c c' : Cache}
    (remembered : ∀ key, Option.Rel Template.Twins (c.find? key) (c'.find? key)) (kind : Kind)
    (name : String) : Agree Template.Twins (e.loaded c kind name) (e'.loaded c' kind name) := by
  have keys : e'.cacheKey? kind name = e.cacheKey? kind name := by
    rw [h.same]
    rfl
  have fetch := h.fetch kind name
  unfold Engine.loaded
  rw [keys]
  cases e.cacheKey? kind name with
  | error fault => exact .error fault
  | ok key? =>
    cases key? with
    | none => exact fetch
    | some key =>
      simp only [bind, Except.bind]
      have twins := remembered key
      generalize c.find? key = found, c'.find? key = found' at twins ⊢
      cases twins with
      | some twins => exact .ok twins
      | none => exact fetch

theorem Debugs.resolved (h : e.Debugs e') {c c' : Cache}
    (remembered : ∀ key, Option.Rel Template.Twins (c.find? key) (c'.find? key)) (kind : Kind)
    (name : String) :
    Agree (Option.Rel Template.Twins) (e.resolved c kind name) (e'.resolved c' kind name) := by
  have twins := h.registered kind name
  unfold Engine.resolved
  generalize (e.registered.ofKind kind).lookup name = found,
    (e'.registered.ofKind kind).lookup name = found' at twins ⊢
  cases twins with
  | some twins => exact .ok (.some twins)
  | none => exact ifFoundAgree (h.loaded remembered kind name)

end Engine

namespace Node

theorem refersCommon {ι : Type} {family : ι → String → Prop} {n : Node Value}
    (h : ∀ i, n.RefersTo (family i)) : n.RefersTo fun name => ∀ i, family i name := by
  cases n with
  | embed | layout => exact h
  | component pos name props children =>
    by_cases slot : name = slotTag
    · exact .inl slot
    · exact .inr fun i => (h i).resolve_left slot
  | _ => trivial

theorem RefersTo.imp {known known' : String → Prop} (weaker : ∀ name, known name → known' name)
    {n : Node Value} (h : n.RefersTo known) : n.RefersTo known' := by
  cases n with
  | embed | layout => exact weaker _ h
  | component => exact h.imp_right (weaker _)
  | _ => trivial

end Node

theorem Template.Clean.holds {t : Template} (h : t.Clean) {known : String → Prop}
    (names : ∀ name ∈ t.metadata.dependencies, known name) :
    (Bounds.content (Node.RefersTo known) known).Holds t :=
  Bounds.contentHolds (h.normal.lists names) fun _ _ refers => refers

def Host.Indifferent (h : Host) : Prop :=
  ∀ c : RenderContext, h.Blind { c with debug := false } { c with debug := true }

namespace Session
variable {s s' : Session}

structure Debugs (s s' : Session) : Prop where
  engine : s.engine.Debugs s'.engine
  host : s'.host = s.host
  objects : s'.objects = s.objects
  remembered : ∀ key, Option.Rel Template.Twins (s.cache.find? key) (s'.cache.find? key)

theorem Debugs.resolve (h : s.Debugs s') {kind : Kind} {name : String}
    (clean : ∀ found, (s'.resolve? kind name).1.result = .ok (some found) → found.Clean) :
    (s'.resolve? kind name).1.result = (s.resolve? kind name).1.result := by
  rw [resolveResult] at clean
  rw [resolveResult, resolveResult]
  have both := h.engine.resolved h.remembered kind name
  generalize s.engine.resolved s.cache kind name = x,
    s'.engine.resolved s'.cache kind name = y at both clean ⊢
  cases both with
  | error fault => rfl
  | ok twins =>
    cases twins with
    | none => rfl
    | some twins => rw [twins.eq (clean _ rfl)]

/- Known names are all that a render can come to: they are those that the page and what is given
to it refer to, and with a name those that its template refers to. -/
structure Tracks (known : String → Prop) (s : Session) (t : Template) (values : Layer)
    (o : RenderOptions) : Prop where
  own : ∀ name ∈ t.metadata.dependencies, known name
  around : ∀ name, o.layout = some name → known name
  through : ∀ kind name found, kind ≠ .page → known name →
    (s.resolve? kind name).1.result = .ok (some found) →
      ∀ further ∈ found.metadata.dependencies, known further
  outside : s.Supplies (Node.RefersTo known) values o

def Reaches (s : Session) (t : Template) (values : Layer) (o : RenderOptions) (name : String) :
    Prop := ∀ known, s.Tracks known t values o → known name

section
variable {t : Template} {values : Layer} {o : RenderOptions}

theorem tracksAll (s : Session) : s.Tracks (fun _ => True) t values o := by
  have anything := Value.holdsAnything Node.refersAnywhere
  exact ⟨fun _ _ => trivial, fun _ _ => trivial, fun _ _ _ _ _ _ _ _ => trivial,
    ⟨fun _ _ _ _ _ _ _ => ⟨fun v _ => anything v, fun e _ => anything e.2⟩,
      fun e _ => anything e.2, fun e _ => anything e.2, fun e _ => anything e.2⟩⟩

/- What is reached is known to all that know enough, and is enough itself. -/
theorem reachesTracks (s : Session) : s.Tracks (s.Reaches t values o) t values o := by
  -- content that refers to what each of them knows refers to what is reached
  have common : ∀ {v : Value}, (∀ known, s.Tracks known t values o →
      v.Holds (Node.RefersTo known)) → v.Holds (Node.RefersTo (s.Reaches t values o)) := by
    intro v held
    have together : v.Holds fun n => ∀ i : { known // s.Tracks known t values o },
        n.RefersTo i.1 := .common ⟨_, s.tracksAll⟩ fun i => held i.1 i.2
    exact together.imp fun n each => (Node.refersCommon each).imp
      fun name reached known tracks => reached ⟨known, tracks⟩
  have apart : ∀ {known}, s.Tracks known t values o → ∀ {v : Value},
      v.Holds (Node.RefersTo (s.Reaches t values o)) → v.Holds (Node.RefersTo known) :=
    fun tracks _ held => held.imp fun _ refers => refers.imp fun _ reached => reached _ tracks
  refine ⟨fun name listed known tracks => tracks.own name listed,
    fun name given known tracks => tracks.around name given,
    fun kind name found other reached resolved further listed known tracks =>
      tracks.through kind name found other (reached known tracks) resolved further listed, ?_⟩
  have host : s.host.Keeps (Value.Holds (Node.RefersTo (s.Reaches t values o))) := by
    intro name args active entries n given held
    have calls := fun known (tracks : s.Tracks known t values o) =>
      tracks.outside.host name args active entries n (fun a among => apart tracks (given a among))
        fun e among => apart tracks (held e among)
    exact ⟨fun v answer => common fun known tracks => (calls known tracks).1 v answer,
      fun e member => common fun known tracks => (calls known tracks).2 e member⟩
  exact ⟨host, fun e member => common fun known tracks => tracks.outside.globals e member,
    fun e member => common fun known tracks => tracks.outside.values e member,
    fun e member => common fun known tracks => tracks.outside.metadata e member⟩

/-- Debugging adds comments on problems and changes nothing else, where no template that a render
can come to has issues. -/
theorem debuggingComments (debugs : s.Debugs s') (indifferent : s.host.Indifferent)
    (sound : s.engine.loader.Sound) (page : t.Clean)
    (clean : ∀ kind name found, kind ≠ .page → s'.Reaches t values o name →
      (s'.resolve? kind name).1.result = .ok (some found) → found.Clean) :
    (s'.render (.template t) values o .plain).1.result =
        (s.render (.template t) values o .plain).1.result ∧
      (s.render (.template t) values o .plain).1.chunks =
        (s'.render (.template t) values o .plain).1.chunks.filter
          fun chunk => !chunk.isProblem := by
  have same : ∀ kind name, kind ≠ .page → s'.Reaches t values o name →
      (s'.resolve? kind name).1.result = (s.resolve? kind name).1.result :=
    fun kind name other reached => debugs.resolve (clean kind name · other reached)
  have tracks : s'.Tracks (s'.Reaches t values o) t values o := s'.reachesTracks
  have kin := debugs.engine.kin
  have outside : s.Supplies (Node.RefersTo (s'.Reaches t values o)) values o :=
    ⟨debugs.host ▸ tracks.outside.host, kin.globals ▸ tracks.outside.globals,
      tracks.outside.values, tracks.outside.metadata⟩
  have shares : s.Shares (Node.RefersTo (s'.Reaches t values o)) (s'.Reaches t values o) s' := by
    refine ⟨⟨kin, debugs.host, debugs.objects⟩, fun _ refers => refers, sound, ?_, same, ?_⟩
    · rw [debugs.engine.same]
      exact sound
    · intro kind name found other reached resolved
      rw [← same kind name other reached] at resolved
      exact (clean kind name found other reached resolved).holds
        (tracks.through kind name found other reached resolved)
  have wanted : s'.engine.debug = true := by rw [debugs.engine.same]
  have pair := Stage.lockstepQuiet (Bounds.contentClosed shares.refers) outside.host kin
    shares.engines debugs.engine.off wanted indifferent
  have other : Stage.of s'.engine s.host .plain = s'.stage .plain := by rw [stage, debugs.host]
  rw [other] at pair
  exact shares.render pair outside (page.holds tracks.own) tracks.around

end

/- A card that calls a helper nobody gave and refers to a template that is not there. -/
def noisy (debug : Bool) : Session where
  engine :=
    { loader := .memory
        { embeds := [("card", "<b>\x7b\x7b shout name \x7d\x7d</b>\x7b\x7b> gone\x7d\x7d")] }
      debug := debug }
  host := Stage.echoHost

def noisyNodes : List (Node Value) :=
  [.text ⟨1, 0⟩ "<b>", .call ⟨1, 3⟩ "shout" ["name"] true [], .text ⟨1, 19⟩ "</b>",
    .embed ⟨1, 23⟩ "gone" []]

def noisyCard : Template := ⟨noisyNodes, .of noisyNodes [] none, some "card", none⟩

theorem noisyClean : noisyCard.Clean :=
  ⟨{ name := some "card", debug := true },
    "<b>\x7b\x7b shout name \x7d\x7d</b>\x7b\x7b> gone\x7d\x7d", rfl, by cbv⟩

theorem deckClean : deckPage.Clean :=
  ⟨{ debug := true }, "\x7b\x7b> card\x7d\x7d", rfl, by cbv⟩

theorem noisyResolves {kind : Kind} {name : String} {found : Template} (other : kind ≠ .page)
    (inside : name = "card" ∨ name = "gone")
    (resolved : ((noisy true).resolve? kind name).1.result = .ok (some found)) :
    found = noisyCard := by
  have card : ((noisy true).resolve? .embed "card").1.result = .ok (some noisyCard) := by cbv
  have gone : ((noisy true).resolve? .embed "gone").1.result = .ok none := rfl
  cases kind with
  | page => contradiction
  | embed =>
    rcases inside with rfl | rfl
    · rw [card] at resolved
      exact (Option.some.inj (Except.ok.inj resolved)).symm
    · rw [gone] at resolved
      cases resolved
  | component =>
    have absent : ((noisy true).resolve? .component name).1.result = .ok none := rfl
    rw [absent] at resolved
    cases resolved
  | layout =>
    have absent : ((noisy true).resolve? .layout name).1.result = .ok none := rfl
    rw [absent] at resolved
    cases resolved

theorem noisyReaches {name : String}
    (reached : (noisy true).Reaches deckPage [("name", .text "Ann")] {} name) :
    name = "card" ∨ name = "gone" := by
  refine reached (fun name => name = "card" ∨ name = "gone")
    ⟨fun name listed => .inl (List.mem_singleton.mp listed), nofun, ?_, nameSupplied rfl rfl⟩
  intro kind name found other inside resolved further listed
  rw [noisyResolves other inside resolved] at listed
  exact .inr (List.mem_singleton.mp listed)

theorem noisyComments :
    ((noisy true).render (.template deckPage) [("name", .text "Ann")] {} .plain).1.result =
        ((noisy false).render (.template deckPage) [("name", .text "Ann")] {} .plain).1.result ∧
      ((noisy false).render (.template deckPage) [("name", .text "Ann")] {} .plain).1.chunks =
        ((noisy true).render (.template deckPage) [("name", .text "Ann")] {} .plain).1.chunks.filter
          fun chunk => !chunk.isProblem := by
  have engine : (noisy false).engine.Debugs (noisy true).engine := by
    refine ⟨rfl, rfl, fun kind name => ?_⟩
    cases kind <;> exact .none
  have debugs : (noisy false).Debugs (noisy true) := ⟨engine, rfl, rfl, fun _ => .none⟩
  refine debuggingComments debugs (fun _ _ _ _ _ => rfl) trivial deckClean
    fun kind name found other reached resolved => ?_
  rw [noisyResolves other (noisyReaches reached) resolved]
  exact noisyClean

end Session
end Medley
