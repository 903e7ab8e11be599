import Medley.Proofs.Render.Alike
import Medley.Proofs.Render.Halting
import Medley.Session

/-! The cache is unseen. Over templates in memory a key belongs to one name, so what is remembered
under a key is what reading that name again would give. An environment that remembers templates
then answers as one that reads them anew each time, whatever it is asked for and in whatever
order. -/
namespace Medley

namespace Engine
variable {e : Engine} {c : Cache} {shelves : Shelves}

def withCache (e : Engine) (cached : Bool) : Engine := { e with cached }

/- What is remembered is what would be read. -/
def Faithful (e : Engine) (c : Cache) : Prop :=
  ∀ kind name t, c.find? ⟨kind, Loader.slashed kind name⟩ = some t → e.fetch kind name = .ok t

theorem faithfulEmpty (empty : c.entries = []) : e.Faithful c := by
  intro kind name t found
  simp [Cache.find?, empty] at found

theorem cacheKeyMemory (memory : e.loader = .memory shelves) (kind : Kind) (name : String) :
    e.cacheKey? kind name =
      .ok (if e.cached then some ⟨kind, Loader.slashed kind name⟩ else none) := by
  unfold cacheKey?
  rw [memory]
  cases e.cached <;> rfl

theorem Faithful.loaded (h : e.Faithful c) (memory : e.loader = .memory shelves) (kind : Kind)
    (name : String) : e.loaded c kind name = e.fetch kind name := by
  unfold Engine.loaded
  rw [cacheKeyMemory memory]
  simp only [bind, Except.bind]
  split
  · rfl
  · rename_i key keyed
    split at keyed
    · cases keyed
      split
      · rename_i t found
        exact (h kind name t found).symm
      · rfl
    · contradiction

theorem Faithful.afterLoad (h : e.Faithful c) (memory : e.loader = .memory shelves) (kind : Kind)
    (name : String) : e.Faithful (e.afterLoad c kind name) := by
  intro kind' name' t found
  rcases e.afterLoadFind c kind name ⟨kind', Loader.slashed kind' name'⟩ with
    same | ⟨keyed, _, t', read, put⟩
  · exact h kind' name' t (same ▸ found)
  · -- the key was put there just now, so the names are the same
    rw [cacheKeyMemory memory] at keyed
    split at keyed
    · simp only [Except.ok.injEq, Option.some.injEq, CacheKey.mk.injEq] at keyed
      obtain ⟨rfl, same⟩ := keyed
      cases Loader.slashedInjective same
      rw [put] at found
      cases found
      exact read
    · cases keyed

theorem Faithful.afterResolve (h : e.Faithful c) (memory : e.loader = .memory shelves)
    (kind : Kind) (name : String) : e.Faithful (e.afterResolve c kind name) := by
  unfold Engine.afterResolve
  split
  · exact h
  · exact h.afterLoad memory kind name

theorem Faithful.resolved (h : e.Faithful c) (memory : e.loader = .memory shelves) (kind : Kind)
    (name : String) (c' : Cache) :
    (e.withCache false).resolved c' kind name = e.resolved c kind name := by
  unfold Engine.resolved
  rw [h.loaded memory]
  rfl

end Engine

namespace Engine

theorem registerUncached (e : Engine) (r : Registry) (name : String) (v : Value) :
    (e.withCache false).registerFunction r name v =
      (e.registerFunction r name v).map fun e => e.withCache false := by
  unfold registerFunction registerFunctions
  cases [(name, v)].mapM fun e => do return (e.1, ← Registry.function e.1 e.2) with
  | error fault => rfl
  | ok given => cases r <;> rfl

theorem registerOnly {e e' : Engine} {r : Registry} {name : String} {v : Value}
    (h : e.registerFunction r name v = .ok e') : ∃ entries, e' = e.withTable r entries := by
  obtain ⟨given, read, made⟩ := okBind h
  cases made
  exact ⟨_, rfl⟩

end Engine

theorem Engine.alikeUncached {e : Engine} {shelves : Shelves}
    (memory : e.loader = .memory shelves) :
    e.Alike .all (fun c _ => e.Faithful c) (e.withCache false) where
  found kind name c c' _ _ faithful := by
    rw [faithful.resolved memory]
    exact Bounds.allFound _
  kept kind name c c' _ _ faithful := faithful.afterResolve memory kind name

/- What a program asks of an environment, and what its functions may do besides: lists and maps in a
template that is remembered are shared with every render of it, so they can be edited there. -/
inductive Operation where
  | load (kind : Kind) (name : String)
  | find (kind : Kind) (name : String)
  | render (page : Page) (values : Layer) (o : RenderOptions) (sink : Sink)
  | renderLoaded (manner : Manner) (name : String) (a : Arguments) (o : RenderOptions)
      (sink : Sink)
  | renderInline (manner : Manner) (source : String) (name : Option String) (a : Arguments)
      (o : RenderOptions) (sink : Sink)
  | register (kind : Kind) (name source : String)
  | registerRead (kind : Kind) (name : String) (t : Template)
  | registerFunction (r : Registry) (name : String) (v : Value)
  | clearCache
  | notify (path : Option String)
  | flush
  | cancel
  | edit (change : Template → Template)

def Operation.LeavesData : Operation → Prop
  | .edit change => ∀ t, change t = t
  | _ => True

/- Functions of two host programs give the same of the same: not one of them tells where in memory
a value lies. -/
structure Host.Alike (h h' : Host) : Prop where
  call : ∀ name args active entries n,
    h'.call name args active entries n = h.call name args active entries n
  deferred : ∀ name, h'.isDeferred name = h.isDeferred name
  members : ∀ v key, h'.members v key = h.members v key
  invoke : ∀ f v, h'.invoke f v = h.invoke f v
  clocks : h'.utc = h.utc ∧ h'.plain = h.plain
  room : h'.room = h.room

theorem Host.Alike.same {h h' : Host} (alike : h.Alike h') : h' = h := by
  cases h
  cases h'
  simp only [Host.mk.injEq]
  refine ⟨?_, funext alike.deferred, alike.clocks.1, alike.clocks.2, ?_, ?_, alike.room⟩
  · funext name args active entries n
    exact alike.call name args active entries n
  · funext v key
    exact alike.members v key
  · funext f v
    exact alike.invoke f v

structure Outcome where
  result : Except Fault (Option Template)
  chunks : List Chunk := []

namespace Session

def written : Answer Unit × Session → Outcome × Session
  | (a, s) => (⟨a.result.map fun _ => none, a.chunks⟩, s)

def renderResult (s : Session) (manner : Manner) (t : Except Fault Template) (a : Arguments)
    (o : RenderOptions) (sink : Sink) : Outcome × Session :=
  match t with
  | .ok t => written (s.renderTemplate manner t a o sink)
  | .error fault => ({ result := .error fault }, s)

def registerResult (s : Session) (kind : Kind) (name : String) (t : Except Fault Template) :
    Outcome × Session :=
  match t with
  | .ok t => ({ result := .ok (some t) }, { s with engine := s.engine.register kind name t })
  | .error fault => ({ result := .error fault }, s)

def act (s : Session) : Operation → Outcome × Session
  | .load kind name =>
      let (a, s) := s.load kind name
      ({ result := a.result.map some }, s)
  | .find kind name =>
      let (a, s) := s.load? kind name
      ({ result := a.result }, s)
  | .render page values o sink => written (s.render page values o sink)
  | .renderLoaded manner name a o sink =>
      let (t, s) := s.load .page name
      s.renderResult manner t.result a o sink
  | .renderInline manner source name a o sink =>
      s.renderResult manner (s.engine.read source name none) a o sink
  | .register kind name source =>
      s.registerResult kind name (s.engine.read source (some name) none)
  | .registerRead kind name t => s.registerResult kind name (.ok t)
  | .registerFunction r name v => match s.engine.registerFunction r name v with
      | .ok engine => ({ result := .ok none }, { s with engine })
      | .error fault => ({ result := .error fault }, s)
  | .clearCache => written s.clearCache
  | .notify path => written (s.notify path)
  | .flush => written s.flush
  | .cancel => ({ result := .ok none }, s.cancel)
  | .edit change =>
      let entries := s.cache.entries.map fun e => (e.1, change e.2)
      ({ result := .ok none }, { s with cache := { s.cache with entries } })

def run (s : Session) : List Operation → List Outcome
  | [] => []
  | op :: ops => let (outcome, s) := s.act op
      outcome :: s.run ops

/- A session that remembers templates, and the one that answers for it without. -/
structure Mirrors (s s' : Session) : Prop where
  memory : ∃ shelves, s.engine.loader = .memory shelves
  engine : s'.engine = s.engine.withCache false
  host : s'.host = s.host
  objects : s'.objects = s.objects
  debouncer : s'.debouncer = s.debouncer
  faithful : s.engine.Faithful s.cache

namespace Mirrors
variable {s s' : Session} (m : s.Mirrors s')

def Alike (s : Session) : World → World → Prop :=
  World.Alike (Chunk.Seen fun _ => true) .all fun c _ => s.engine.Faithful c

/- What an answer of the second session has to be. -/
structure Answers {α : Type} (x y : Answer α × Session) : Prop where
  result : y.1.result = x.1.result
  chunks : y.1.chunks = x.1.chunks
  after : x.2.Mirrors y.2

include m

theorem start : Alike s { cache := s.cache, objects := s.objects }
    { cache := s'.cache, objects := s'.objects } :=
  ⟨rfl, rfl, fun _ _ => trivial, m.objects, m.faithful⟩

theorem perform {α : Type} {step step' : Run α}
    (together : ∀ w w', Alike s w w' →
      Alike s (step.on w).2 (step'.on w').2 ∧ (step'.on w').1 = (step.on w).1) :
    Answers (s.perform step) (s'.perform step') := by
  obtain ⟨alike, results⟩ := together _ _ m.start
  have chunks := alike.chunks
  rw [Chunk.Seen, List.filter_eq_self.mpr fun _ _ => rfl] at chunks
  exact ⟨results, congrArg List.reverse chunks.symm,
    ⟨m.memory, m.engine, m.host, alike.objects, m.debouncer, alike.caches⟩⟩

theorem loadAnswers (kind : Kind) (name : String) :
    Answers (s.load kind name) (s'.load kind name) := by
  obtain ⟨shelves, memory⟩ := m.memory
  refine m.perform fun w w' alike => ?_
  rw [m.engine]
  obtain ⟨logs, left⟩ := s.engine.onLoad kind name w
  obtain ⟨logs', right⟩ := (s.engine.withCache false).onLoad kind name w'
  have same : (s.engine.withCache false).loaded w'.cache kind name =
      s.engine.loaded w.cache kind name := (alike.caches.loaded memory kind name).symm
  rw [left, right, same]
  exact ⟨{ alike with caches := alike.caches.afterLoad memory kind name }, rfl⟩

theorem findAnswers (kind : Kind) (name : String) :
    Answers (s.load? kind name) (s'.load? kind name) := by
  obtain ⟨shelves, memory⟩ := m.memory
  refine m.perform fun w w' alike => ?_
  rw [m.engine]
  obtain ⟨logs, left⟩ := s.engine.onLoad? kind name w
  obtain ⟨logs', right⟩ := (s.engine.withCache false).onLoad? kind name w'
  have same : (s.engine.withCache false).loaded w'.cache kind name =
      s.engine.loaded w.cache kind name := (alike.caches.loaded memory kind name).symm
  rw [left, right, same]
  exact ⟨{ alike with caches := alike.caches.afterLoad memory kind name }, rfl⟩

theorem renderAnswers (page : Page) (values : Layer) (o : RenderOptions) (sink : Sink) :
    Answers (s.render page values o sink) (s'.render page values o sink) := by
  obtain ⟨shelves, memory⟩ := m.memory
  have kin : s.engine.Kin (s.engine.withCache false) := ⟨rfl, rfl, rfl, rfl, rfl⟩
  have keeps : s.host.Keeps Bounds.all.value := fun _ _ _ _ _ _ _ =>
    ⟨fun _ _ => trivial, fun _ _ => trivial⟩
  have pair := Stage.lockstepSame Bounds.allClosed keeps kin (Engine.alikeUncached memory) rfl sink
  refine m.perform fun w w' alike => ?_
  have mirror : s'.stage sink = .of (s.engine.withCache false) s.host sink := by
    rw [stage, m.engine, m.host]
  rw [mirror]
  have both := Stage.pageMatches pair page (Stage.besideStart rfl page) rfl rfl values o
    (fun _ _ => trivial) (fun _ _ => trivial) (fun _ _ => trivial) (fun _ _ => trivial)
    (fun _ _ => trivial) w w'
    ⟨alike.chunks, rfl, fun _ _ => trivial, alike.objects, alike.caches⟩
  exact ⟨both.1, (both.2.imp fun _ _ _ => rfl).eq⟩

theorem renderTemplateAnswers (manner : Manner) (t : Template) (a : Arguments)
    (o : RenderOptions) (sink : Sink) :
    Answers (s.renderTemplate manner t a o sink) (s'.renderTemplate manner t a o sink) := by
  unfold renderTemplate
  cases a.values manner with
  | ok values => exact m.renderAnswers _ values o sink
  | error fault => exact ⟨rfl, rfl, m⟩

theorem clearAnswers : Answers s.clearCache s'.clearCache := by
  unfold clearCache
  exact ⟨rfl, rfl, m.memory, m.engine, m.host, m.objects, m.debouncer, Engine.faithfulEmpty rfl⟩

theorem settleAnswers (d : Debouncer) (report : Option Debouncer.Report) :
    Answers (s.settle d report) (s'.settle d report) := by
  have settled : ({ s with debouncer := d } : Session).Mirrors { s' with debouncer := d } :=
    ⟨m.memory, m.engine, m.host, m.objects, rfl, m.faithful⟩
  have after := settled.clearAnswers.after
  unfold settle
  cases report with
  | none => exact ⟨rfl, rfl, settled⟩
  | some r =>
    dsimp only [clearCache] at after ⊢
    exact ⟨rfl, rfl, after⟩

omit m in
theorem writtenSame {x y : Answer Unit × Session} (h : Answers x y) :
    (written y).1 = (written x).1 ∧ (written x).2.Mirrors (written y).2 := by
  refine ⟨?_, h.after⟩
  simp only [written, h.result, h.chunks]

theorem withEngine {e : Engine} (loader : e.loader = s.engine.loader)
    (fetch : e.fetch = s.engine.fetch) :
    Mirrors { s with engine := e } { s' with engine := e.withCache false } := by
  obtain ⟨shelves, memory⟩ := m.memory
  refine ⟨⟨shelves, loader.trans memory⟩, rfl, m.host, m.objects, m.debouncer, ?_⟩
  intro kind name t found
  dsimp only
  rw [fetch]
  exact m.faithful kind name t found

theorem registerSame (kind : Kind) (name : String) (t : Except Fault Template) :
    (s'.registerResult kind name t).1 = (s.registerResult kind name t).1 ∧
      (s.registerResult kind name t).2.Mirrors (s'.registerResult kind name t).2 := by
  unfold registerResult
  cases t with
  | error fault => exact ⟨rfl, m⟩
  | ok t =>
    have after := m.withEngine (e := s.engine.register kind name t) rfl rfl
    rw [m.engine]
    exact ⟨rfl, after⟩

theorem renderResultSame (manner : Manner) (t : Except Fault Template) (a : Arguments)
    (o : RenderOptions) (sink : Sink) :
    (s'.renderResult manner t a o sink).1 = (s.renderResult manner t a o sink).1 ∧
      (s.renderResult manner t a o sink).2.Mirrors (s'.renderResult manner t a o sink).2 := by
  unfold renderResult
  cases t with
  | error fault => exact ⟨rfl, m⟩
  | ok t => exact writtenSame (m.renderTemplateAnswers manner t a o sink)

theorem registerFunctionSame (r : Registry) (name : String) (v : Value) :
    (s'.act (.registerFunction r name v)).1 = (s.act (.registerFunction r name v)).1 ∧
      (s.act (.registerFunction r name v)).2.Mirrors
        (s'.act (.registerFunction r name v)).2 := by
  unfold act
  dsimp only
  rw [m.engine]
  rw [Engine.registerUncached]
  cases made : s.engine.registerFunction r name v with
  | error fault => exact ⟨rfl, m⟩
  | ok e =>
    obtain ⟨entries, rfl⟩ := Engine.registerOnly made
    refine ⟨rfl, m.withEngine ?_ ?_⟩ <;> cases r <;> rfl

theorem act (op : Operation) (leaves : op.LeavesData) :
    (s'.act op).1 = (s.act op).1 ∧ (s.act op).2.Mirrors (s'.act op).2 := by
  have read := fun source name => congrArg (fun e => Engine.read e source name none) m.engine
  cases op with
  | load kind name =>
    have h := m.loadAnswers kind name
    simp only [Session.act, h.result]
    exact ⟨trivial, h.after⟩
  | find kind name =>
    have h := m.findAnswers kind name
    simp only [Session.act, h.result]
    exact ⟨trivial, h.after⟩
  | render page values o sink => exact writtenSame (m.renderAnswers page values o sink)
  | renderLoaded manner name a o sink =>
    have h := m.loadAnswers .page name
    simp only [Session.act, h.result]
    exact h.after.renderResultSame manner _ a o sink
  | renderInline manner source name a o sink =>
    simp only [Session.act, read]
    exact m.renderResultSame manner _ a o sink
  | register kind name source =>
    simp only [Session.act, read]
    exact m.registerSame kind name _
  | registerRead kind name t => exact m.registerSame kind name (.ok t)
  | registerFunction r name v => exact m.registerFunctionSame r name v
  | clearCache => exact writtenSame m.clearAnswers
  | notify path =>
    simp only [Session.act, notify, m.debouncer]
    exact writtenSame (m.settleAnswers _ _)
  | flush =>
    simp only [Session.act, flush, m.debouncer]
    exact writtenSame (m.settleAnswers _ _)
  | cancel =>
    exact ⟨rfl, m.memory, m.engine, m.host, m.objects,
      congrArg Debouncer.cancel m.debouncer, m.faithful⟩
  | edit change =>
    have same : (fun e : CacheKey × Template => (e.1, change e.2)) = id :=
      funext fun e => congrArg (Prod.mk e.1) (leaves e.2)
    refine ⟨rfl, m.memory, m.engine, m.host, m.objects, m.debouncer, ?_⟩
    dsimp only [Session.act]
    rw [same, List.map_id]
    exact m.faithful

theorem run (ops : List Operation) (leave : ∀ op ∈ ops, op.LeavesData) :
    s'.run ops = s.run ops := by
  induction ops generalizing s s' with
  | nil => rfl
  | cons op ops ih =>
    obtain ⟨first, later⟩ := List.forall_mem_cons.mp leave
    obtain ⟨same, after⟩ := m.act op first
    exact congrArg₂ List.cons same (ih after later)

end Mirrors

/- A session before its first operation, with its templates in memory. -/
def opened (s : Session) (shelves : Shelves) (cached : Bool) : Session :=
  { s with engine := { s.engine with loader := .memory shelves, cached }, cache := {} }

/-- Whatever they are asked for, an environment with a cache and one without give the same, where
functions of their host programs give the same and leave the data of templates as they are. -/
theorem cacheUnseen (s : Session) {h : Host} (alike : s.host.Alike h) (shelves : Shelves)
    {ops : List Operation} (leave : ∀ op ∈ ops, op.LeavesData) :
    (s.opened shelves true).run ops = (({ s with host := h } : Session).opened shelves false).run
      ops := by
  obtain rfl := alike.same
  have mirrors : (s.opened shelves true).Mirrors (s.opened shelves false) :=
    ⟨⟨shelves, rfl⟩, rfl, rfl, rfl, rfl, Engine.faithfulEmpty rfl⟩
  exact (mirrors.run ops leave).symm

def plainSession : Session := { engine := {}, host := Stage.echoHost }

def homeShelf : Shelves := { pages := [("home", "a")] }

def reloading : List Operation :=
  [.load .page "home", .renderLoaded .whole "home" {} {} .plain, .edit id, .notify none, .flush,
    .load .page "home"]

theorem reloadUnseen : plainSession.host.Alike Stage.echoHost ∧
    (∀ op ∈ reloading, op.LeavesData) ∧
      (plainSession.opened homeShelf true).run reloading =
        (plainSession.opened homeShelf false).run reloading := by
  have alike : plainSession.host.Alike Stage.echoHost :=
    ⟨fun _ _ _ _ _ => rfl, fun _ => rfl, fun _ _ => rfl, fun _ _ => rfl, ⟨rfl, rfl⟩, rfl⟩
  have leave : ∀ op ∈ reloading, op.LeavesData := by simp [reloading, Operation.LeavesData]
  exact ⟨alike, leave, cacheUnseen plainSession alike homeShelf leave⟩

/- A page that is emptied where it is remembered. -/
def emptying : List Operation :=
  [.load .page "home", .edit fun t => { t with nodes := [] }, .load .page "home"]

def nodeCount (o : Outcome) : Nat :=
  match o.result with
  | .ok (some t) => t.nodes.length
  | _ => 0

/- Without the condition on what functions leave alone the two are told apart. -/
theorem editSeen : ¬ ∀ (s : Session) (shelves : Shelves) (ops : List Operation),
    (s.opened shelves true).run ops = (s.opened shelves false).run ops := by
  intro unseen
  have cached : ((plainSession.opened homeShelf true).run emptying).map nodeCount =
      [1, 0, 0] := by decide +kernel
  have fresh : ((plainSession.opened homeShelf false).run emptying).map nodeCount =
      [1, 0, 1] := by decide +kernel
  rw [unseen, fresh] at cached
  exact absurd cached (by decide)

end Session
end Medley
