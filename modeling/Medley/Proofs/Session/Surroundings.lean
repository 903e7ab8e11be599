import Medley.Proofs.Render.Faults
import Medley.Proofs.Render.Paired
import Medley.Proofs.Session.Dependencies

/-! Renders inside of contexts of the host program. Around every function a context of the render's
own becomes the active one, and what a function changes is the metadata of that one: the contexts
around the render, and which of them is active, are the same afterwards. So a render that is done
again gives the same. -/
namespace Medley

/- What functions of the host program give depends on their arguments and the active context
alone. -/
def Host.Settled (h : Host) : Prop :=
  ∀ name args active entries n n',
    h.call name args active entries n' = h.call name args active entries n

theorem Host.Settled.pairs {h : Host} (settled : h.Settled) : h.Pairs Eq fun _ _ => True where
  counts _ _ _ := trivial
  answers name args active m m' n n' same _ := by
    subst same
    rw [settled name args active m n n']
    exact ⟨rfl, rfl⟩

theorem Translator.pairsSelf (t : Translator) : t.Pairs t Eq where
  translate _ _ _ same := same ▸ rfl
  plural _ _ _ same := same ▸ rfl

namespace Stage
variable {s : Stage} {k : Contexts}

/- Whatever a function does, and also where it fails, the contexts are the same after it. -/
theorem applyAmid (h : Host) (t : Translator) (c : RenderContext) (f : Function)
    (args : List Value) :
    Run.Keeps (fun w => w.contexts = k) (Run.within c (f.apply h t args)) fun _ => True := by
  have applied : Run.Keeps (fun w => w.At c ∧ w.contexts.exit = k) (f.apply h t args)
      fun _ => True := by
    refine Function.applyKept Bounds.allClosed.values Bounds.allClosed.escaped
      (fun _ _ inside => inside) (fun name args _ w ⟨active, under⟩ => ?_) t f fun _ _ => trivial
    rw [Host.onApply h active]
    exact ⟨⟨active, under⟩, fun _ _ => trivial⟩
  exact .within (fun w same => ⟨w.atEnter c, same⟩) (fun w inside => inside.2) applied

theorem confinesAmid : Confines (fun w => w.contexts = k) .all (fun _ => True) s where
  closed := Bounds.allClosed
  deep := trivial
  logs _ _ same := same
  emit chunk w same := by
    unfold Run.emit
    rw [Run.onBindOk (Run.onGet w)]
    split
    · exact ⟨same, .error trivial⟩
    · exact ⟨same, .ok trivial⟩
  token _ _ _ _ _ _ _ := trivial
  output _ _ _ _ _ := trivial
  apply f c args _ w same :=
    ⟨(applyAmid s.host s.engine.translator c f args w same).1,
      .of (fun _ _ => trivial) fun _ _ => trivial⟩
  resolve kind name _ _ w same := by
    obtain ⟨logs, run⟩ := s.engine.onResolve kind name w
    rw [run]
    exact ⟨same, .of (fun _ _ _ _ => ⟨fun _ _ => trivial, fun _ _ => trivial, fun _ _ => trivial⟩)
      fun _ _ => trivial⟩

end Stage

def Engine.BothSteady (e : Engine) (start c c' : Cache) : Prop :=
  e.Steady (fun _ => True) start c ∧ e.Steady (fun _ => True) start c'

theorem Engine.steadyAlike {e : Engine} (sound : e.loader.Sound) (start : Cache) :
    e.Alike .all (e.BothSteady start) e where
  found kind name _ _ other _ steady :=
    Bounds.foundContent (steady.1 kind name other trivial) (steady.2 kind name other trivial)
      fun _ _ => ⟨fun _ _ => trivial, fun _ _ => trivial, fun _ _ => trivial⟩
  kept kind name _ _ _ _ steady := ⟨steady.1.after sound kind name, steady.2.after sound kind name⟩

namespace Session
variable (s : Session) (k : Contexts) (p : Page) (values : Layer) (o : RenderOptions) (sink : Sink)

theorem renderInContexts : (s.renderIn k p values o sink).2.2 = k :=
  (Stage.pageConfined (Stage.confinesAmid (k := k)) p (fun _ _ => trivial) (o.inside k)
    (fun _ _ => trivial) (fun _ _ => trivial) (fun _ _ => trivial) (fun _ _ => trivial)
    (fun _ _ => trivial) (w := { cache := s.cache, objects := s.objects, contexts := k }) rfl).1

theorem renderInAlone :
    (s.renderIn k p values o sink).1.result = (s.render p values (o.inside k) sink).1.result ∧
      (s.renderIn k p values o sink).1.chunks = (s.render p values (o.inside k) sink).1.chunks ∧
        (s.renderIn k p values o sink).2.1 = (s.render p values (o.inside k) sink).2 := by
  have host : s.host.Pairs Eq Eq := ⟨fun _ _ same => same ▸ rfl, by
    rintro name args active m _ n _ rfl rfl
    exact ⟨rfl, rfl⟩⟩
  have alike : s.engine.Alike .all Eq s.engine :=
    Engine.alikeSame (fun _ _ _ => rfl) fun _ _ _ => rfl
  obtain ⟨result, after⟩ := Stage.pagePaired sink host s.engine.translator.pairsSelf alike rfl rfl
    rfl rfl rfl p values (o.inside k) (o.inside k) rfl
    { cache := s.cache, objects := s.objects }
    { cache := s.cache, objects := s.objects, contexts := k } ⟨rfl, rfl, rfl, rfl⟩
  refine ⟨result, congrArg List.reverse after.chunks, ?_⟩
  have kept : ∀ w w' : World, w'.cache = w.cache → w'.objects = w.objects →
      { s with cache := w'.cache, objects := w'.objects } =
        ({ s with cache := w.cache, objects := w.objects } : Session) := by
    intro w w' caches objects
    rw [caches, objects]
  exact kept _ _ after.caches.symm after.objects.symm

/-- Whatever contexts there are around a render, it leaves them as they are: the same one is active,
and no metadata of theirs has changed. Done again at once it gives the same, where nothing that
functions of the host program give depends on how many objects there are. -/
theorem surroundingsUntouched :
    let first := s.renderIn k p values o sink
    let again := first.2.1.renderIn first.2.2 p values o sink
    first.2.2 = k ∧
      (s.engine.loader.Sound → s.host.Settled →
        again.1.result = first.1.result ∧ again.1.chunks = first.1.chunks) := by
  dsimp only
  refine ⟨renderInContexts s k p values o sink, fun sound settled => ?_⟩
  rw [renderInContexts]
  have again : ∀ w w' : World, w'.chunks = w.chunks →
      s.engine.BothSteady s.cache w.cache w'.cache →
      ((Stage.page (s.stage sink) p values (o.inside k)).on w').1 =
          ((Stage.page (s.stage sink) p values (o.inside k)).on w).1 ∧
        World.Paired Eq (fun _ _ => True) (s.engine.BothSteady s.cache)
          ((Stage.page (s.stage sink) p values (o.inside k)).on w).2
          ((Stage.page (s.stage sink) p values (o.inside k)).on w').2 :=
    fun w w' chunks steady => Stage.pagePaired sink settled.pairs s.engine.translator.pairsSelf
      (s.engine.steadyAlike sound s.cache) rfl rfl rfl rfl rfl p values _ _ rfl _ _
      ⟨chunks, rfl, trivial, steady⟩
  have start : s.engine.Steady (fun _ => True) s.cache s.cache := fun _ _ _ _ => rfl
  -- the first render beside itself says what is remembered after it
  obtain ⟨_, itself⟩ := again { cache := s.cache, objects := s.objects, contexts := k }
    { cache := s.cache, objects := s.objects, contexts := k } rfl ⟨start, start⟩
  obtain ⟨result, after⟩ := again { cache := s.cache, objects := s.objects, contexts := k }
    { cache := (s.renderIn k p values o sink).2.1.cache
      objects := (s.renderIn k p values o sink).2.1.objects, contexts := k } rfl
    ⟨start, itself.caches.1⟩
  exact ⟨result, congrArg List.reverse after.chunks⟩

/- The host program reads the locale and sets it, and everything else fails. -/
def meddler : Session where
  engine :=
    { helpers := [("locale", .host "locale"), ("speak", .host "speak"), ("boom", .host "boom")] }
  host :=
    { Stage.echoHost with
      call := fun name args _ entries _ =>
        if name = "locale" then (.ok entries.locale, entries)
        else if name = "speak" then (.ok .null, setProp entries "locale" (args.headD .null))
        else (.error (.host "ValueError" "no"), entries) }

def surroundings : Contexts :=
  ((({} : Contexts).enter {} [("locale", .text "fr")]).1.enter { debug := true } []).1

def meddling : Page :=
  .nodes [.call .start "locale" [] true [], .call .start "speak" ["'de'"] true [],
    .call .start "boom" [] true [], .call .start "locale" [] true []]

theorem meddlingUntouched : meddler.engine.loader.Sound ∧ meddler.host.Settled ∧
    let first := meddler.renderIn surroundings meddling [] {} .plain
    let again := first.2.1.renderIn first.2.2 meddling [] {} .plain
    first.1.chunks = [.value "fr", .value "de"] ∧ first.2.2 = surroundings ∧
      again.1.result = first.1.result ∧ again.1.chunks = first.1.chunks := by
  have settled : meddler.host.Settled := fun _ _ _ _ _ _ => rfl
  obtain ⟨same, again⟩ := surroundingsUntouched meddler surroundings meddling [] {} .plain
  refine ⟨trivial, settled, ?_, same, again trivial settled⟩
  unfold renderIn performIn Stage.page meddling
  dsimp only [Page.layout?, Page.body]
  simp only [Stage.nodes, Stage.node, Stage.written]
  rfl

end Session
end Medley
