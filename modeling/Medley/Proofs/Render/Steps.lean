import Medley.Proofs.Helper.Results
import Medley.Proofs.Render.Names
import Medley.Proofs.Template.Made
import Medley.Render.Render

/-! Steps that keep a policy. A step keeps a property of the world and gives results of a certain
kind; so do steps one after the other. Evaluating an output keeps the policy of the templates and
values that it starts from, as long as functions of the host program give back data or what they
were given. -/
namespace Medley

namespace Run

def on {α : Type} (m : Run α) (w : World) : Except Fault α × World := m.run.run w

theorem onBindOk {α β : Type} {m : Run α} {f : α → Run β} {w w' : World} {a : α}
    (h : m.on w = (.ok a, w')) : (m >>= f).on w = (f a).on w' := by
  have step : (m >>= f).on w = (ExceptT.bindCont f (m.on w).1).run (m.on w).2 := rfl
  rw [step, h]
  rfl

theorem onBindError {α β : Type} {m : Run α} {f : α → Run β} {w w' : World} {e : Fault}
    (h : m.on w = (.error e, w')) : (m >>= f).on w = (.error e, w') := by
  have step : (m >>= f).on w = (ExceptT.bindCont f (m.on w).1).run (m.on w).2 := rfl
  rw [step, h]
  rfl

def Keeps {α : Type} (P : World → Prop) (m : Run α) (Q : α → Prop) : Prop :=
  ∀ w, P w → P (m.on w).2 ∧ ∀ a, (m.on w).1 = .ok a → Q a

variable {α β : Type} {P : World → Prop} {Q : α → Prop} {R : β → Prop}

theorem Keeps.pure {a : α} (h : Q a) : Keeps P (Pure.pure a) Q := by
  intro w inv
  refine ⟨inv, fun b same => ?_⟩
  cases same
  exact h

theorem Keeps.bind {m : Run α} {f : α → Run β} (first : Keeps P m Q)
    (second : ∀ a, Q a → Keeps P (f a) R) : Keeps P (m >>= f) R := by
  intro w inv
  obtain ⟨kept, result⟩ := first w inv
  cases same : m.on w with
  | mk answer w' =>
    rw [same] at kept result
    cases answer with
    | ok a =>
      rw [onBindOk same]
      exact second a (result a rfl) w' kept
    | error e =>
      rw [onBindError same]
      exact ⟨kept, fun b absent => by cases absent⟩

theorem Keeps.imp {m : Run α} {Q' : α → Prop} (h : Keeps P m Q) (weaker : ∀ a, Q a → Q' a) :
    Keeps P m Q' := fun w inv =>
  ⟨(h w inv).1, fun a same => weaker a ((h w inv).2 a same)⟩

theorem Keeps.map {m : Run α} {f : α → β} (h : Keeps P m Q) (made : ∀ a, Q a → R (f a)) :
    Keeps P (f <$> m) R := by
  rw [map_eq_pure_bind]
  exact h.bind fun a found => .pure (made a found)

theorem Keeps.throw (e : Fault) : Keeps P (throw e : Run α) Q := fun _ inv =>
  ⟨inv, fun a absent => by cases absent⟩

theorem Keeps.ofExcept {x : Except Fault α} (h : ∀ a, x = .ok a → Q a) :
    Keeps P (Run.ofExcept x) Q := by
  cases x with
  | ok a => exact .pure (h a rfl)
  | error e => exact .throw e

theorem Keeps.modify {f : World → World} (h : ∀ w, P w → P (f w)) :
    Keeps P (modify f : Run Unit) fun _ => True := fun w inv =>
  ⟨h w inv, fun _ _ => trivial⟩

theorem Keeps.attempt {m : Run α} (h : Keeps P m Q) :
    Keeps P (Run.attempt m) fun answer => ∀ a, answer = .ok a → Q a := by
  intro w inv
  obtain ⟨kept, result⟩ := h w inv
  have same : (Run.attempt m).on w = (.ok (m.on w).1, (m.on w).2) := rfl
  rw [same]
  refine ⟨kept, fun answer equal a found => ?_⟩
  cases equal
  exact result a found

theorem onGet (w : World) : (get : Run World).on w = (.ok w, w) := rfl

/- What is done in a context is done in the world in which it is active. -/
theorem onWithin (c : RenderContext) (m : Run α) (w : World) :
    (within c m).on w = ((m.on (w.enter c)).1, (m.on (w.enter c)).2.leave) := by
  have entered : (modify fun w => w.enter c : Run Unit).on w = (.ok (), w.enter c) := rfl
  have tried : (attempt m).on (w.enter c) =
      (.ok (m.on (w.enter c)).1, (m.on (w.enter c)).2) := rfl
  unfold within
  rw [onBindOk entered, onBindOk tried]
  cases (m.on (w.enter c)).1 <;> rfl

theorem Keeps.within {c : RenderContext} {I : World → Prop} {m : Run α}
    (enter : ∀ w, P w → I (w.enter c)) (leave : ∀ w, I w → P w.leave) (h : Keeps I m Q) :
    Keeps P (Run.within c m) Q := by
  intro w inv
  rw [onWithin]
  obtain ⟨kept, result⟩ := h _ (enter w inv)
  exact ⟨leave _ kept, result⟩

end Run

namespace World

theorem cacheWithActiveMeta (w : World) (entries : Meta) :
    (w.withActiveMeta entries).cache = w.cache := by
  unfold withActiveMeta
  split
  · split <;> rfl
  · rfl

theorem chunksWithActiveMeta (w : World) (entries : Meta) :
    (w.withActiveMeta entries).chunks = w.chunks := by
  unfold withActiveMeta
  split
  · split <;> rfl
  · rfl

end World

structure World.Obeys (p : Policy) (w : World) : Prop where
  cached : ∀ e ∈ w.cache.entries, e.2.Every p.node
  chunks : ∀ c ∈ w.chunks, p.chunk c

def Host.Returns (h : Host) : Prop :=
  ∀ name args active entries n v, (h.call name args active entries n).1 = .ok v →
    v.Plain ∨ v ∈ args

def Policy.Shows (p : Policy) (escape : Bool) : Prop :=
  ∀ l v, v.Obeys p l → (∀ inner ns scope, v ≠ .fragment inner ns scope) →
    ∀ text, Stage.outputText escape v = .ok text → text.isEmpty = false → p.chunk (.value text)

/-- What allowed nodes put out is allowed too, and so are the layouts that are made on the way. -/
structure Policy.Fits (p : Policy) (debug : Bool) : Prop where
  escaped : p.AllowsEscaped
  layout : ∀ pos props children, Layer.Plain props → p.node (.layout pos props children)
  literal : ∀ pos s, p.node (.text pos s) → s.isEmpty = false → p.chunk (.literal s)
  lookup : ∀ pos path escape filters, p.node (.lookup pos path escape filters) → p.Shows escape
  call : ∀ pos name args escape filters, p.node (.call pos name args escape filters) →
    p.Shows escape
  diagnostic : ∀ pos code message source, p.node (.diagnostic pos code message source) →
    p.chunk (.diagnostic code message)
  comment : debug = true → ∀ code message, p.chunk (.comment code message)

/- What a render starts from obeys: the templates that can be found, the globals, and the
functions of the host program if there are any. -/
structure Stage.Obeys (p : Policy) (s : Stage) : Prop where
  fits : p.Fits s.engine.debug
  registered : ∀ kind, ∀ e ∈ s.engine.registered.ofKind kind, e.2.Every p.node
  fetched : ∀ kind name t, s.engine.fetch kind name = .ok t → t.Every p.node
  globals : Layer.Plain s.engine.globals
  host : ∀ name f, s.engine.helper? name = some f ∨ s.engine.filter? name = some f →
    ∀ h, f = .host h → s.host.Returns

variable {p : Policy} {l : Nat}

namespace Run

theorem logKeeps (level : Level) (message : String) :
    Keeps (World.Obeys p) (log level message) fun _ => True :=
  .modify fun _ inv => ⟨inv.cached, inv.chunks⟩

theorem emitKeeps (sink : Sink) {chunk : Chunk} (h : p.chunk chunk) :
    Keeps (World.Obeys p) (emit sink chunk) fun _ => True := by
  intro w inv
  unfold emit
  rw [onBindOk (onGet w)]
  split
  · exact Keeps.throw _ w inv
  · refine ⟨⟨inv.cached, fun c member => ?_⟩, fun _ _ => trivial⟩
    rcases List.mem_cons.mp member with rfl | old
    · exact h
    · exact inv.chunks c old

end Run

namespace Host

theorem applyKeeps {h : Host} (returns : h.Returns) (name : String) {args : List Value}
    (obeys : ∀ a ∈ args, a.Obeys p l) :
    Run.Keeps (World.Obeys p) (h.apply name args) fun v => v.Obeys p l := by
  intro w inv
  unfold apply
  rw [Run.onBindOk (Run.onGet w)]
  have answer := returns name args w.activeContext? w.activeMeta w.objects
  cases called : h.call name args w.activeContext? w.activeMeta w.objects with
  | mk result entries =>
    rw [called] at answer
    have changed : (set { w.withActiveMeta entries with objects := w.objects + 1 } : Run Unit).on w =
        (.ok (), { w.withActiveMeta entries with objects := w.objects + 1 }) := rfl
    have kept : World.Obeys p { w.withActiveMeta entries with objects := w.objects + 1 } :=
      ⟨by rw [World.cacheWithActiveMeta]; exact inv.cached,
        by rw [World.chunksWithActiveMeta]; exact inv.chunks⟩
    dsimp only
    rw [Run.onBindOk changed]
    refine Run.Keeps.ofExcept (fun v found => ?_) _ kept
    rcases answer v found with plain | member
    · exact plain.obeys p l
    · exact obeys v member

end Host

namespace Builtin

theorem passingKeeps {I : World → Prop} {P : Value → Prop} {test : Value → Run Bool}
    {xs : List Value} (each : ∀ x ∈ xs, P x)
    (tests : ∀ x, P x → Run.Keeps I (test x) fun _ => True) :
    Run.Keeps I (passing test xs) fun ys => ∀ y ∈ ys, P y := by
  induction xs with
  | nil => exact .pure (List.forall_mem_nil _)
  | cons x xs ih =>
    obtain ⟨first, later⟩ := List.forall_mem_cons.mp each
    unfold passing
    refine (tests x first).bind fun kept _ => (ih later).bind fun ys rest => .pure ?_
    split
    · exact List.forall_mem_cons.mpr ⟨first, rest⟩
    · exact rest

theorem applyToAllKeeps {I : World → Prop} {P : Value → Prop} {f : Value → Run Value}
    {xs : List Value} (each : ∀ x ∈ xs, P x) (makes : ∀ x, P x → Run.Keeps I (f x) P) :
    Run.Keeps I (applyToAll f xs) fun ys => ∀ y ∈ ys, P y := by
  induction xs with
  | nil => exact .pure (List.forall_mem_nil _)
  | cons x xs ih =>
    obtain ⟨first, later⟩ := List.forall_mem_cons.mp each
    unfold applyToAll
    exact (makes x first).bind fun y made => (ih later).bind fun ys rest =>
      .pure (List.forall_mem_cons.mpr ⟨made, rest⟩)

theorem callerMethod {host : Host} {key : Value} (obeys : key.Obeys p l) {c : Caller}
    (found : caller? host key = some c) :
    ∃ f, c = ⟨fun x => Value.truthy <$> host.method f x, host.method f⟩ := by
  unfold caller? at found
  split at found
  · exact absurd obeys Value.noFunction
  · rename_i f
    split at found
    · exact ⟨f, (Option.some.inj found).symm⟩
    · contradiction
  · contradiction

theorem methodKeeps (host : Host) (f : Foreign) {v : Value} (obeys : v.Obeys p l) :
    Run.Keeps (World.Obeys p) (host.method f v) fun w => w.Obeys p l :=
  .ofExcept fun w found => by
    obtain ⟨made, _, rfl⟩ := okMap found
    exact (Value.obeysClosed p l).made obeys made.2

theorem applyKeeps (law : p.AllowsEscaped) (host : Host) (b : Builtin) {args : List Value}
    (obeys : ∀ a ∈ args, a.Obeys p l) :
    Run.Keeps (World.Obeys p) (b.apply host args) fun v => v.Obeys p l := by
  have evaluated : ∀ b : Builtin, Run.Keeps (World.Obeys p) (Run.ofExcept (b.evaluate host args))
      fun v => v.Obeys p l := fun b => .ofExcept fun v found =>
    evaluateHolds (Value.obeysClosed p l) (law.taken l) host b obeys found
  unfold apply
  split
  · exact .throw _
  · split
    · split
      · rename_i v key _ _ c xs found items
        obtain ⟨f, rfl⟩ := callerMethod (obeys _ (.tail _ (.head _))) found
        have each := (obeys _ List.mem_cons_self).items items
        exact (passingKeeps each fun x ok => (methodKeeps host f ok).map fun _ _ => trivial).map
          fun _ kept => .list kept
      · exact evaluated _
    · split
      · rename_i v key _ _ c xs found items
        obtain ⟨f, rfl⟩ := callerMethod (obeys _ (.tail _ (.head _))) found
        have each := (obeys _ List.mem_cons_self).items items
        exact (applyToAllKeeps each fun x ok => methodKeeps host f ok).map fun _ kept => .list kept
      · exact evaluated _
    · exact (Run.logKeeps _ _).bind fun _ _ => .pure (obeys _ List.mem_cons_self)
    · exact evaluated _

end Builtin

namespace Function

theorem applyKeeps (law : p.AllowsEscaped) {host : Host} (t : Translator) {f : Function}
    (returns : ∀ h, f = .host h → host.Returns) {args : List Value}
    (obeys : ∀ a ∈ args, a.Obeys p l) :
    Run.Keeps (World.Obeys p) (f.apply host t args) fun v => v.Obeys p l := by
  cases f with
  | builtin b => exact Builtin.applyKeeps law host b obeys
  | translate =>
    intro w inv
    unfold apply
    dsimp only
    rw [Run.onBindOk (Run.onGet w)]
    exact Run.Keeps.ofExcept
      (fun v found => translateHolds (Value.obeysClosed p l) obeys found) w inv
  | translatePlural =>
    intro w inv
    unfold apply
    dsimp only
    rw [Run.onBindOk (Run.onGet w)]
    exact Run.Keeps.ofExcept
      (fun v found => pluralHolds (Value.obeysClosed p l) found) w inv
  | host name => exact Host.applyKeeps (returns name rfl) name obeys

end Function

namespace Stage
variable {s : Stage} {scope : Scope} (obeys : s.Obeys p) (c : RenderContext)
  (names : Scope.Obeys p l scope)

theorem warnKeeps (message : String) :
    Run.Keeps (World.Obeys p) (warn c message) fun _ => True := by
  unfold warn
  split
  · exact Run.logKeeps _ _
  · exact .pure trivial

include obeys in
theorem callKeeps (code : Code) (what : String) {f : Function}
    (returns : ∀ h, f = .host h → s.host.Returns) {args : List Value}
    (given : ∀ a ∈ args, a.Obeys p l) :
    Run.Keeps (World.Obeys p) (s.call c code what f args) fun v => v.Obeys p l := by
  unfold call
  have applied : Run.Keeps (World.Obeys p) (Run.within c (f.apply s.host s.engine.translator args))
      fun v => v.Obeys p l :=
    .within (fun _ inv => ⟨inv.cached, inv.chunks⟩) (fun _ inv => ⟨inv.cached, inv.chunks⟩)
      (Function.applyKeeps obeys.fits.escaped s.engine.translator returns given)
  refine applied.attempt.bind fun answer result => ?_
  split
  · exact .pure (result _ rfl)
  · exact (warnKeeps c _).bind fun _ _ => .throw _

include names in
theorem argumentsKeep (tokens : List String) :
    Run.Keeps (World.Obeys p) (Run.ofExcept (tokens.mapM (s.argument scope)))
      fun args => ∀ a ∈ args, a.Obeys p l :=
  .ofExcept fun _ found => argumentsHold (Value.obeysClosed p l) names found

include obeys names in
theorem applyFilterKeeps {v : Value} (value : v.Obeys p l) (f : FilterCall) :
    Run.Keeps (World.Obeys p) (s.applyFilter c scope v f) fun v => v.Obeys p l := by
  unfold applyFilter
  dsimp only
  split
  · exact .throw _
  · rename_i g found
    refine (argumentsKeep names f.args).bind fun args given => ?_
    refine callKeeps obeys c _ _ (obeys.host f.name g (.inr found)) fun a member => ?_
    rcases List.mem_cons.mp member with rfl | later
    · exact value
    · exact given a later

include obeys names in
theorem applyFiltersKeep (filters : List FilterCall) {v : Value} (value : v.Obeys p l) :
    Run.Keeps (World.Obeys p) (s.applyFilters c scope filters v) fun v => v.Obeys p l := by
  unfold applyFilters
  induction filters generalizing v with
  | nil => exact .pure value
  | cons f filters ih =>
    rw [List.foldlM_cons]
    exact (applyFilterKeeps obeys c names value f).bind fun v next => ih next

include obeys names in
theorem applyHelperKeeps (name : String) (args : List String) :
    Run.Keeps (World.Obeys p) (s.applyHelper c scope name args) fun v => v.Obeys p l := by
  unfold applyHelper
  dsimp only
  split
  · exact .throw _
  · rename_i f found
    exact (argumentsKeep names args).bind fun args given =>
      callKeeps obeys c _ _ (obeys.host name f (.inl found)) given

include obeys in
theorem commentKeeps (debug : c.debug = s.engine.debug) (code : Code) (message : String) :
    Run.Keeps (World.Obeys p) (s.comment c code message) fun _ => True := by
  unfold comment
  split
  · rename_i wanted
    exact Run.emitKeeps _ (obeys.fits.comment (debug ▸ wanted) _ _)
  · exact .pure trivial

include obeys in
theorem outputKeeps (debug : c.debug = s.engine.debug) {value : Run Value}
    (given : Run.Keeps (World.Obeys p) value fun v => v.Obeys p l) :
    Run.Keeps (World.Obeys p) (s.output? c value) fun o => ∀ v, o = some v → v.Obeys p l := by
  unfold output?
  refine given.attempt.bind fun answer result => ?_
  split
  · rename_i v
    refine .pure fun w same => ?_
    cases same
    exact result v rfl
  · exact (commentKeeps obeys c debug _ _).bind fun _ _ => .pure fun w absent => by cases absent
  · exact .throw _

include obeys in
theorem exceededKeeps (debug : c.debug = s.engine.debug) (kind : Kind) (name : String) :
    Run.Keeps (World.Obeys p) (s.exceeded c kind name) fun _ => True :=
  (warnKeeps c _).bind fun _ _ => commentKeeps obeys c debug _ _

include obeys in
theorem missingKeeps (debug : c.debug = s.engine.debug) (kind : Kind) (name : String) :
    Run.Keeps (World.Obeys p) (s.missing c kind name) fun _ => True :=
  commentKeeps obeys c debug _ _

theorem putMember {entries : List (CacheKey × Template)} {k : CacheKey} {t : Template}
    {e : CacheKey × Template} (member : e ∈ Cache.putEntry entries k t) :
    e ∈ entries ∨ e.2 = t := by
  induction entries with
  | nil =>
    rw [List.mem_singleton.mp member]
    exact .inr rfl
  | cons d entries ih =>
    rw [Cache.putEntry] at member
    split at member
    · rcases List.mem_cons.mp member with rfl | later
      · exact .inr rfl
      · exact .inl (List.mem_cons_of_mem d later)
    · rcases List.mem_cons.mp member with rfl | later
      · exact .inl List.mem_cons_self
      · exact (ih later).imp_left (List.mem_cons_of_mem d)

theorem rememberedKeeps (key : CacheKey) :
    Run.Keeps (World.Obeys p) (Engine.remembered? key) fun o => ∀ t, o = some t →
      t.Every p.node := by
  intro w inv
  unfold Engine.remembered?
  rw [Run.onBindOk (Run.onGet w)]
  unfold Cache.get
  cases found : w.cache.find? key with
  | none => exact ⟨⟨inv.cached, inv.chunks⟩, fun o same t absent => by cases same; cases absent⟩
  | some t =>
    refine ⟨⟨inv.cached, inv.chunks⟩, fun o same t' nonempty => ?_⟩
    cases same
    cases nonempty
    exact inv.cached _ (Value.lookupMember found)

theorem keepKeeps (key : CacheKey) {t : Template} (h : t.Every p.node) :
    Run.Keeps (World.Obeys p) (Engine.keep key t) fun _ => True := by
  refine .modify fun w inv => ⟨fun e member => ?_, inv.chunks⟩
  rcases putMember member with old | same
  · exact inv.cached e old
  · rw [same]
    exact h

include obeys in
theorem loadKeeps (kind : Kind) (name : String) :
    Run.Keeps (World.Obeys p) (s.engine.load kind name) fun t => t.Every p.node := by
  have fetch : Run.Keeps (World.Obeys p) (Run.ofExcept (s.engine.fetch kind name))
      fun t => t.Every p.node := .ofExcept fun t found => obeys.fetched kind name t found
  unfold Engine.load
  refine (Run.Keeps.ofExcept fun _ _ => trivial : Run.Keeps _ _ fun _ => True).bind fun key _ => ?_
  split
  · exact fetch
  · refine (rememberedKeeps _).bind fun o known => ?_
    split
    · exact (Run.logKeeps _ _).bind fun _ _ => .pure (known _ rfl)
    · exact (Run.logKeeps _ _).bind fun _ _ => fetch.bind fun t good =>
        (keepKeeps _ good).bind fun _ _ => .pure good

include obeys in
theorem resolveKeeps (kind : Kind) (name : String) :
    Run.Keeps (World.Obeys p) (s.engine.resolve? kind name) fun o => ∀ t, o = some t →
      t.Every p.node := by
  unfold Engine.resolve?
  split
  · rename_i t found
    refine .pure fun t' same => ?_
    cases same
    exact obeys.registered kind _ (Value.lookupMember found)
  · unfold Engine.load?
    refine (loadKeeps obeys kind name).attempt.bind fun answer result => ?_
    split
    · refine .pure fun t same => ?_
      cases same
      exact result _ rfl
    · split
      · have nothing : Run.Keeps (World.Obeys p) (pure none : Run (Option Template))
            fun o => ∀ t, o = some t → t.Every p.node := .pure fun t absent => by cases absent
        dsimp only
        split
        · exact (Run.logKeeps _ _).bind fun _ _ => nothing
        · exact nothing
      · exact .throw _

end Stage
end Medley
