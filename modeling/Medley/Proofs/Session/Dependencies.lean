import Mathlib
import Medley.Proofs.Render.Content
import Medley.Proofs.Render.Halting
import Medley.Session

/-! Dependencies are complete. From the names that a page refers to, and those that their templates
refer to in turn, every name that a render can come to is reached: environments that differ in
other templates only give the same. -/
namespace Medley

/- While templates are remembered, references by known names keep standing for the content that they
stand for at the start. -/
def Engine.Steady (known : String → Prop) (e : Engine) (start c : Cache) : Prop :=
  ∀ kind name, kind ≠ .page → known name →
    (e.resolved c kind name).map (Option.map Template.content) =
      (e.resolved start kind name).map (Option.map Template.content)

theorem Engine.Steady.after {known : String → Prop} {e : Engine} {start c : Cache}
    (h : e.Steady known start c) (sound : e.loader.Sound) (kind : Kind) (name : String) :
    e.Steady known start (e.afterResolve c kind name) := fun kind' name' other inside =>
  (e.resolvedAfter sound c kind kind' name name').trans (h kind' name' other inside)

theorem Bounds.holdsContent {b : Bounds} {t t' : Template} (h : b.Holds t)
    (same : t'.content = t.content) : b.Holds t' := by
  obtain ⟨nodes, metadata⟩ := Prod.mk.inj same
  exact ⟨nodes ▸ h.nodes, metadata ▸ h.data, metadata ▸ h.layout⟩

theorem Bounds.foundContent {b : Bounds} {x y z : Except Fault (Option Template)}
    (left : x.map (Option.map Template.content) = z.map (Option.map Template.content))
    (right : y.map (Option.map Template.content) = z.map (Option.map Template.content))
    (holds : ∀ t, z = .ok (some t) → b.Holds t) : Agree b.Found x y := by
  cases z with
  | error fault =>
    cases x <;> cases y <;> cases left <;> cases right
    exact .error fault
  | ok o =>
    cases x with
    | error fault => cases left
    | ok p =>
      cases y with
      | error fault => cases right
      | ok p' =>
        have left := Except.ok.inj left
        have right := Except.ok.inj right
        cases o with
        | none =>
          rw [Option.map_eq_none_iff.mp left, Option.map_eq_none_iff.mp right]
          exact .ok .none
        | some t =>
          obtain ⟨u, rfl, same⟩ := Option.map_eq_some_iff.mp left
          obtain ⟨u', rfl, same'⟩ := Option.map_eq_some_iff.mp right
          obtain ⟨nodes, metadata⟩ := Prod.mk.inj (same'.trans same.symm)
          exact .ok (.some nodes metadata (Bounds.holdsContent (holds t rfl) same))

namespace Session

theorem resolveResult (s : Session) (kind : Kind) (name : String) :
    (s.resolve? kind name).1.result = s.engine.resolved s.cache kind name := by
  obtain ⟨logs, found⟩ := s.engine.onResolve kind name { cache := s.cache, objects := s.objects }
  exact congrArg Prod.fst found

structure Akin (s s' : Session) : Prop where
  engine : s.engine.Kin s'.engine
  host : s'.host = s.host
  objects : s'.objects = s.objects

structure Supplies (q : Node Value → Prop) (s : Session) (values : Layer) (o : RenderOptions) :
    Prop where
  host : s.host.Keeps (Value.Holds q)
  globals : Layer.Each (Value.Holds q) s.engine.globals
  values : Layer.Each (Value.Holds q) values
  metadata : Layer.Each (Value.Holds q) o.metadata

/-- Known names stand for the same in two sessions, and for templates within the bounds. -/
structure Shares (q : Node Value → Prop) (known : String → Prop) (s s' : Session) : Prop where
  akin : s.Akin s'
  refers : ∀ n, q n → n.RefersTo known
  sound : s.engine.loader.Sound
  sound' : s'.engine.loader.Sound
  same : ∀ kind name, kind ≠ .page → known name →
    (s'.resolve? kind name).1.result = (s.resolve? kind name).1.result
  holds : ∀ kind name t, kind ≠ .page → known name →
    (s.resolve? kind name).1.result = .ok (some t) → (Bounds.content q known).Holds t

section
variable {q : Node Value → Prop} {known : String → Prop} {s s' : Session}

def Caches (known : String → Prop) (s s' : Session) (c c' : Cache) : Prop :=
  s.engine.Steady known s.cache c ∧ s'.engine.Steady known s'.cache c'

theorem Shares.engines (shares : s.Shares q known s') :
    s.engine.Alike (.content q known) (s.Caches known s') s'.engine where
  found kind name c c' other inside caches := by
    have same := shares.same kind name other inside
    have holds := fun t => shares.holds kind name t other inside
    rw [resolveResult, resolveResult] at same
    rw [resolveResult] at holds
    refine Bounds.foundContent (caches.1 kind name other inside) ?_ holds
    rw [← same]
    exact caches.2 kind name other inside
  kept kind name c c' _ _ caches :=
    ⟨caches.1.after shares.sound kind name, caches.2.after shares.sound' kind name⟩

theorem Shares.render (shares : s.Shares q known s') {see : Chunk → Bool} {sink : Sink}
    (pair : Stage.Lockstep (World.Alike (Chunk.Seen see) (.content q known) (s.Caches known s'))
      (Stage.Beside (s.stage sink) (s'.stage sink)) (.content q known)
      (s.stage sink) (s'.stage sink))
    {t : Template} {values : Layer} {o : RenderOptions} (outside : s.Supplies q values o)
    (page : (Bounds.content q known).Holds t) (layout : ∀ name, o.layout = some name → known name) :
    (s'.render (.template t) values o sink).1.result =
        (s.render (.template t) values o sink).1.result ∧
      (s.render (.template t) values o sink).1.chunks =
        (s'.render (.template t) values o sink).1.chunks.filter see := by
  have named : ∀ name, (Page.template t).layout? o.layout = some name → known name := by
    intro name asked
    rcases Option.or_eq_some_iff.mp (Option.orElse_eq_or.symm.trans asked) with given | ⟨_, own⟩
    · exact layout name (Option.filter_eq_some_iff.mp given).1
    · exact page.layout name (Option.filter_eq_some_iff.mp own).1
  have both := Stage.pageMatches pair (.template t)
    (Stage.besideStart shares.akin.engine.maxDepth _) shares.akin.engine.globals rfl values o
    outside.globals outside.values page.data page.nodes named
    { cache := s.cache, objects := s.objects } { cache := s'.cache, objects := s'.objects }
    ⟨rfl, rfl, outside.metadata, shares.akin.objects, fun _ _ _ _ => rfl, fun _ _ _ _ => rfl⟩
  obtain ⟨alike, results⟩ := both
  unfold Session.render perform
  have chunks := congrArg List.reverse alike.chunks
  rw [← List.filter_reverse] at chunks
  exact ⟨(results.imp fun _ _ _ => rfl).eq, chunks⟩

end

/- The names that a page depends on: those it refers to and the layout it is to have, and what
the templates by these names depend on. -/
inductive Depends (s : Session) (t : Template) (layout : Option String) : String → Prop where
  | own {name} (h : name ∈ t.metadata.dependencies) : Depends s t layout name
  | around {name} (h : layout = some name) : Depends s t layout name
  | through {kind name found further} (other : kind ≠ .page) (inside : Depends s t layout name)
      (resolved : (s.resolve? kind name).1.result = .ok (some found))
      (h : further ∈ found.metadata.dependencies) : Depends s t layout further

structure OnlyRead (s : Session) : Prop where
  registered : ∀ kind, ∀ e ∈ s.engine.registered.ofKind kind, e.2.IsRead
  cached : ∀ e ∈ s.cache.entries, e.2.IsRead

theorem OnlyRead.resolve {s : Session} (h : s.OnlyRead) {kind : Kind} {name : String}
    {t : Template} (found : (s.resolve? kind name).1.result = .ok (some t)) : t.IsRead := by
  rw [resolveResult] at found
  rcases Engine.resolvedFrom found with given | ⟨key, remembered⟩ | read
  · exact h.registered kind _ given
  · exact h.cached _ remembered
  · obtain ⟨issues, read⟩ := Engine.fetchRead read
    exact ⟨_, issues, read⟩

/- A render depends on no other template: where the names that the page depends on stand for the
same templates, the page gives the same. -/
theorem dependenciesComplete {s s' : Session} (akin : s.Akin s')
    (debug : s'.engine.debug = s.engine.debug) (sound : s.engine.loader.Sound)
    (sound' : s'.engine.loader.Sound) (templates : s.OnlyRead) {t : Template} (page : t.IsRead)
    {values : Layer} {o : RenderOptions}
    (outside : s.Supplies (Node.RefersTo (s.Depends t o.layout)) values o)
    (same : ∀ kind name, kind ≠ .page → s.Depends t o.layout name →
      (s'.resolve? kind name).1.result = (s.resolve? kind name).1.result) (sink : Sink) :
    (s'.render (.template t) values o sink).1.result =
        (s.render (.template t) values o sink).1.result ∧
      (s'.render (.template t) values o sink).1.chunks =
        (s.render (.template t) values o sink).1.chunks := by
  have shares : s.Shares (Node.RefersTo (s.Depends t o.layout)) (s.Depends t o.layout) s' := by
    refine ⟨akin, fun _ refers => refers, sound, sound', same, ?_⟩
    intro kind name found other inside resolved
    obtain ⟨debug, issues, read⟩ := templates.resolve resolved
    exact Bounds.contentHolds (read.lists fun _ member => .through other inside resolved member)
      fun _ _ refers => refers
  obtain ⟨_, issues, read⟩ := page
  have lists : t.Lists _ (s.Depends t o.layout) := read.lists fun _ member => .own member
  have holds : (Bounds.content (Node.RefersTo (s.Depends t o.layout)) _).Holds t :=
    Bounds.contentHolds lists fun _ _ refers => refers
  have pair := Stage.lockstepSame (Bounds.contentClosed shares.refers) outside.host akin.engine
    shares.engines debug sink
  have other : Stage.of s'.engine s.host sink = s'.stage sink := by rw [stage, akin.host]
  rw [other] at pair
  obtain ⟨result, chunks⟩ := shares.render pair outside holds fun _ given => .around given
  rw [List.filter_eq_self.mpr fun _ _ => rfl] at chunks
  exact ⟨result, chunks.symm⟩

theorem echoKeeps {P : Value → Prop} (null : P .null) : Stage.echoHost.Keeps P := by
  intro name args active entries n given held
  refine ⟨fun v found => ?_, held⟩
  cases args with
  | nil =>
    cases found
    exact null
  | cons a args =>
    cases found
    exact given a List.mem_cons_self

def deck (others : List (String × String)) : Session where
  engine :=
    { loader := .memory
        { embeds := [("card", "<b>\x7b\x7b name \x7d\x7d</b>\x7b\x7b> foot\x7d\x7d"), ("foot", "!")] ++
            others } }
  host := Stage.echoHost

def deckNodes : List (Node Value) := [.embed .start "card" []]

def deckPage : Template := ⟨deckNodes, .of deckNodes [] none, none, none⟩

theorem deckRead : deckPage.IsRead :=
  ⟨false, [], {}, "\x7b\x7b> card\x7d\x7d", rfl, by cbv⟩

def dependenciesOf (s : Session) (kind : Kind) (name : String) :
    Except Fault (Option (List String)) :=
  (s.resolve? kind name).1.result.map (Option.map fun t => t.metadata.dependencies)

theorem deckEmbeds (others : List (String × String)) {kind : Kind} {name : String}
    (other : kind ≠ .page) (h : kind ≠ .embed) :
    ((deck others).resolve? kind name).1.result = .ok none := by
  cases kind <;> first | contradiction | rfl

theorem deckDepends {name : String} (h : (deck []).Depends deckPage none name) :
    name = "card" ∨ name = "foot" := by
  induction h with
  | own h => exact .inl (List.mem_singleton.mp h)
  | around h => cases h
  | @through kind name found further other inside resolved h ih =>
    have listed : (deck []).dependenciesOf kind name =
        .ok (some found.metadata.dependencies) := by
      rw [dependenciesOf, resolved]
      rfl
    by_cases embed : kind = .embed
    · subst embed
      rcases ih with rfl | rfl
      · have card : (deck []).dependenciesOf .embed "card" = .ok (some ["foot"]) := by cbv
        rw [← Option.some.inj (Except.ok.inj (card.symm.trans listed))] at h
        exact .inr (List.mem_singleton.mp h)
      · have foot : (deck []).dependenciesOf .embed "foot" = .ok (some []) := by cbv
        rw [← Option.some.inj (Except.ok.inj (foot.symm.trans listed))] at h
        cases h
    · rw [deckEmbeds [] other embed] at resolved
      cases resolved

theorem nameSupplied {q : Node Value → Prop} {s : Session} (host : s.host = Stage.echoHost)
    (globals : s.engine.globals = []) : s.Supplies q [("name", .text "Ann")] {} := by
  refine ⟨host ▸ echoKeeps (.scalar rfl), globals ▸ List.forall_mem_nil _, fun e member => ?_,
    List.forall_mem_nil _⟩
  rw [List.mem_singleton.mp member]
  exact .scalar rfl

theorem deckAkin (others : List (String × String)) : (deck []).Akin (deck others) :=
  ⟨⟨rfl, rfl, rfl, rfl, rfl⟩, rfl, rfl⟩

theorem deckOnlyRead : (deck []).OnlyRead := by
  refine ⟨fun kind e member => ?_, List.forall_mem_nil _⟩
  cases kind <;> cases member

theorem deckElsewhere :
    ((deck [("other", "?")]).render (.template deckPage) [("name", .text "Ann")] {}
          .plain).1.result =
        ((deck []).render (.template deckPage) [("name", .text "Ann")] {} .plain).1.result ∧
      ((deck [("other", "?")]).render (.template deckPage) [("name", .text "Ann")] {}
          .plain).1.chunks =
        ((deck []).render (.template deckPage) [("name", .text "Ann")] {} .plain).1.chunks := by
  refine dependenciesComplete (deckAkin [("other", "?")]) rfl trivial trivial deckOnlyRead
    deckRead (nameSupplied rfl rfl) (fun kind name other inside => ?_) .plain
  by_cases embed : kind = .embed
  · subst embed
    rcases deckDepends inside with rfl | rfl <;> cbv
  · rw [deckEmbeds _ other embed, deckEmbeds _ other embed]

def strayNodes : List (Node Value) := [.lookup .start "x" true []]

def strayPage : Template := ⟨strayNodes, .of strayNodes [] none, none, none⟩

theorem strayRead : strayPage.IsRead := ⟨false, [], {}, "\x7b\x7b x \x7d\x7d", rfl, by cbv⟩

theorem strayDepends {s : Session} {name : String} : ¬ s.Depends strayPage none name := by
  intro depends
  induction depends with
  | own listed => cases listed
  | around given => cases given
  | through _ _ _ _ ih => exact ih

/- Content among the values may refer to what the page does not list. -/
theorem strayContentSeen : ¬ ∀ (s s' : Session) (t : Template) (values : Layer) (o : RenderOptions)
    (sink : Sink), s.Akin s' → s'.engine.debug = s.engine.debug → s.engine.loader.Sound →
      s'.engine.loader.Sound → s.OnlyRead → t.IsRead →
      (∀ kind name, kind ≠ .page → s.Depends t o.layout name →
        (s'.resolve? kind name).1.result = (s.resolve? kind name).1.result) →
      (s'.render (.template t) values o sink).1.chunks =
        (s.render (.template t) values o sink).1.chunks := by
  intro complete
  let values : Layer := [("x", .fragment 0 [.embed .start "other" []] [])]
  have here : ((deck []).render (.template strayPage) values {} .plain).1.chunks = [] := by cbv
  have there : ((deck [("other", "?")]).render (.template strayPage) values {} .plain).1.chunks =
      [.literal "?"] := by cbv
  have same := complete (deck []) (deck [("other", "?")]) strayPage values {} .plain (deckAkin _) rfl
    trivial trivial deckOnlyRead strayRead fun _ _ _ inside => absurd inside strayDepends
  rw [here, there] at same
  cases same

end Session
end Medley
