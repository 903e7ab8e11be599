import Medley.Proofs.Session.Confinement

/-! The chain of references that a context keeps. Each of its entries has the name of the template
that was being rendered and the line of the reference that was come across there. What stands
between the tags of a component is rendered where the component puts it, so there a line is one of
the template that the content was written in. -/
namespace Medley

namespace Node

def reference? : Node Value → Option (Kind × String)
  | embed _ name _ => some (.embed, name)
  | component _ name _ _ => if name = slotTag then none else some (.component, name)
  | _ => none

theorem referenceOther {n : Node Value} {kind : Kind} {name : String}
    (refers : n.reference? = some (kind, name)) : kind ≠ .page := by
  cases n with
  | embed =>
    cases refers
    decide
  | component =>
    rw [reference?] at refers
    split at refers
    · cases refers
    · cases refers
      decide
  | _ => cases refers

theorem Among.within {α : Type} {n m : Node α} {ns : List (Node α)} (inner : n.Among m.children)
    (outer : m.Among ns) : n.Among ns := by
  induction outer with
  | here member => exact .inside member inner
  | inside member _ ih => exact .inside member ih

end Node

def Template.RefersAt (t : Template) (line : Int) : Prop :=
  ∃ n : Node Value, n.Among t.nodes ∧ n.reference?.isSome ∧ n.pos.line = line

namespace Session

/- A template that a render of the page can come to, under the name that it was referred to by. -/
inductive Comes (s : Session) (page : Template) : Option String → Template → Prop where
  | page : Comes s page page.name page
  | through {name t t' next kind} {n : Node Value} (known : Comes s page name t)
      (inside : n.Among t.nodes) (refers : n.reference? = some (kind, next))
      (found : (s.resolve? kind next).1.result = .ok (some t')) : Comes s page (some next) t'

/-- It stands between the tags of a component, in a template that a render can come to. -/
def Content (s : Session) (page : Template) (n : Node Value) : Prop :=
  ∃ name t, s.Comes page name t ∧ ∃ m : Node Value, m.Among t.nodes ∧
    (∃ next, m.reference? = some (.component, next)) ∧ n.Among m.children

def ContentAt (s : Session) (page : Template) (line : Int) : Prop :=
  ∃ n, s.Content page n ∧ n.reference?.isSome ∧ n.pos.line = line

/- A chain of references from the page to a template. Each stands in the template before it, or in
content, and goes by the name of the template before it. -/
inductive Led (s : Session) (page : Template) :
    List (String × Int) → Option String → Template → Prop where
  | start : Led s page [] page.name page
  | further {stack name t t' next kind} {n : Node Value} (before : Led s page stack name t)
      (site : n.Among t.nodes ∨ s.Content page n) (refers : n.reference? = some (kind, next))
      (found : (s.resolve? kind next).1.result = .ok (some t')) :
      Led s page (stack ++ [(RenderContext.nameInChain name, n.pos.line)]) (some next) t'

variable {s : Session} {page : Template}

theorem Content.reaches {n : Node Value} (h : s.Content page n) {kind : Kind} {next : String}
    {t : Template} (refers : n.reference? = some (kind, next))
    (found : (s.resolve? kind next).1.result = .ok (some t)) : s.Comes page (some next) t := by
  obtain ⟨name, u, known, m, outer, _, inner⟩ := h
  exact .through known (inner.within outer) refers found

theorem Content.child {n m : Node Value} (h : s.Content page n) (member : m ∈ n.children) :
    s.Content page m := by
  obtain ⟨name, t, known, k, outer, component, inner⟩ := h
  exact ⟨name, t, known, k, outer, component, .within (.here member) inner⟩

theorem Led.comes {stack : List (String × Int)} {name : Option String} {t : Template}
    (h : s.Led page stack name t) : s.Comes page name t := by
  induction h with
  | start => exact .page
  | further before site refers found ih =>
    rcases site with own | content
    · exact .through ih own refers found
    · exact content.reaches refers found

/- Each entry has the name of a template, and a line where that refers to something, or content
does. -/
theorem Led.sites {stack : List (String × Int)} {name : Option String} {t : Template}
    (h : s.Led page stack name t) : ∀ e ∈ stack, ∃ name t, s.Comes page name t ∧
      RenderContext.nameInChain name = e.1 ∧ (t.RefersAt e.2 ∨ s.ContentAt page e.2) := by
  induction h with
  | start => exact List.forall_mem_nil _
  | @further stack name t t' next kind n before site refers found ih =>
    have referring : n.reference?.isSome := by
      rw [refers]
      rfl
    intro e member
    rcases List.mem_append.mp member with earlier | last
    · exact ih e earlier
    · rw [List.mem_singleton.mp last]
      exact ⟨name, t, before.comes, rfl, site.imp (fun own => ⟨n, own, referring, rfl⟩)
        fun content => ⟨n, content, referring, rfl⟩⟩

abbrev holding (s : Session) (page : Template) : Bounds :=
  .content (s.Content page) fun _ => True

structure Settled (s : Session) (page : Template) (w : World) : Prop where
  steady : s.engine.Steady (fun _ => True) s.cache w.cache
  metadata : Layer.Each (s.holding page).value w.metadata

theorem Comes.read (templates : s.OnlyRead) (read : page.IsRead) {name : Option String}
    {t : Template} (h : s.Comes page name t) : t.IsRead := by
  cases h with
  | page => exact read
  | through _ _ _ found => exact templates.resolve found

theorem Comes.asRead (templates : s.OnlyRead) (read : page.IsRead) {name : Option String}
    {t : Template} (h : s.Comes page name t) {n : Node Value} (inside : n.Among t.nodes) :
    ∃ debug, n.AsRead debug := by
  obtain ⟨debug, issues, made⟩ := h.read templates read
  have lists : t.Lists debug fun _ => True := made.lists fun _ _ => trivial
  exact ⟨debug, (Node.everyAmong lists.nodes inside).1⟩

theorem Content.asRead (templates : s.OnlyRead) (read : page.IsRead) {n : Node Value}
    (h : s.Content page n) : ∃ debug, n.AsRead debug := by
  obtain ⟨name, t, known, m, outer, _, inner⟩ := h
  exact known.asRead templates read (inner.within outer)

theorem contentAmong {n : Node Value} {ns : List (Node Value)} (among : n.Among ns)
    (h : ∀ m ∈ ns, s.Content page m) : s.Content page n := by
  induction among with
  | here member => exact h n member
  | inside member _ ih => exact ih fun k child => (h _ member).child child

theorem contentEvery {ns : List (Node Value)} (h : ∀ n ∈ ns, s.Content page n) :
    ∀ n ∈ ns, n.Every (s.Content page) := fun _ member =>
  Node.amongEvery (fun _ among => contentAmong among h) member

end Session

namespace Stage

/- A stage without templates, which calls functions and puts out values as it does with them. -/
def bare (s : Stage) : Stage :=
  { s with engine := { s.engine with loader := .memory {}, cached := false, registered := {} } }

theorem bareResolves (s : Stage) (kind : Kind) (name : String) (w : World) :
    ∃ logs, (s.bare.engine.resolve? kind name).on w = (.ok none, { w with logs := logs }) := by
  obtain ⟨logs, run⟩ := s.bare.engine.onResolve kind name w
  refine ⟨logs, run.trans ?_⟩
  cases kind <;> rfl

end Stage

namespace Session
variable {s : Session} {page : Template} {values : Layer} {o : RenderOptions} {sink : Sink}

structure Sited (s : Session) (page : Template) : Prop where
  templates : s.OnlyRead
  read : page.IsRead
  sound : s.engine.loader.Sound
  host : s.host.Keeps (s.holding page).value

theorem Sited.closed (sited : s.Sited page) : (s.holding page).Closed := by
  refine Bounds.contentClosed fun n content => ?_
  obtain ⟨debug, asRead⟩ := content.asRead sited.templates sited.read
  exact Node.refersAlone asRead fun _ _ => trivial

theorem Sited.confines (sited : s.Sited page) (sink : Sink) :
    Stage.Confines (s.Settled page) (s.holding page) (fun _ => True)
      (Stage.bare (s.stage sink)) where
  closed := sited.closed
  deep := trivial
  logs _ _ settled := ⟨settled.steady, settled.metadata⟩
  emit _ w settled := by
    unfold Run.emit
    rw [Run.onBindOk (Run.onGet w)]
    split
    · exact ⟨settled, .error trivial⟩
    · exact ⟨⟨settled.steady, settled.metadata⟩, .ok trivial⟩
  token _ _ _ _ _ _ _ := trivial
  output _ _ _ _ _ := trivial
  apply f c _ given := Stage.applyMeets sited.closed sited.host
    (fun _ => ⟨fun settled => ⟨settled.steady, settled.metadata⟩, fun both => ⟨both.1, both.2⟩⟩)
    f c given
  resolve kind name _ _ w settled := by
    obtain ⟨logs, run⟩ := Stage.bareResolves (s.stage sink) kind name w
    rw [run]
    exact ⟨⟨settled.steady, settled.metadata⟩, .ok fun t found => by cases found⟩

theorem resolveSettled (sound : s.engine.loader.Sound) {kind : Kind} (other : kind ≠ .page)
    (name : String) :
    Run.Meets (s.Settled page) (s.engine.resolve? kind name) (fun o => ∀ t, o = some t →
      ∃ u, (s.resolve? kind name).1.result = .ok (some u) ∧ t.nodes = u.nodes) fun _ => True := by
  intro w settled
  obtain ⟨logs, run⟩ := s.engine.onResolve kind name w
  rw [run]
  refine ⟨⟨settled.steady.after sound kind name, settled.metadata⟩,
    .of (fun o found t given => ?_) fun _ _ => trivial⟩
  have found : s.engine.resolved w.cache kind name = .ok (some t) := given ▸ found
  have steady := settled.steady kind name other trivial
  rw [found] at steady
  rw [resolveResult]
  obtain ⟨o, before, same⟩ := okMap steady.symm
  obtain ⟨u, rfl, equal⟩ := Option.map_eq_some_iff.mp same
  exact ⟨u, before, (Prod.mk.inj equal).1.symm⟩

/- Where a render is: under a chain from the page to a template, in nodes of that template or in
content. -/
structure At (s : Session) (page : Template) (c : RenderContext) (u : Template)
    (ns : List (Node Value)) : Prop where
  led : s.Led page c.stack c.templateName u
  nodes : (∀ n ∈ ns, n.Among u.nodes) ∨ ∀ n ∈ ns, s.Content page n

structure Traced (s : Session) (page : Template) (t : Task) : Prop where
  names : Scope.Each (s.holding page).value t.scope
  place : ∃ u, s.At page t.context u t.nodes

section
variable {c : RenderContext} {u : Template} {n : Node Value} {ns : List (Node Value)}

theorem At.rest (h : s.At page c u (n :: ns)) : s.At page c u ns :=
  ⟨h.led, h.nodes.imp (fun own m member => own m (List.mem_cons_of_mem n member))
    fun content m member => content m (List.mem_cons_of_mem n member)⟩

theorem At.first (h : s.At page c u (n :: ns)) : n.Among u.nodes ∨ s.Content page n :=
  h.nodes.imp (fun own => own n List.mem_cons_self) fun content => content n List.mem_cons_self

theorem At.inside (h : s.At page c u (n :: ns)) : s.At page c u n.children :=
  ⟨h.led, h.first.imp (fun own _ member => .within (.here member) own)
    fun content _ member => content.child member⟩

theorem At.content (h : s.At page c u ns) {ms : List (Node Value)}
    (content : ∀ m ∈ ms, s.Content page m) : s.At page c u ms := ⟨h.led, .inr content⟩

theorem At.further (h : s.At page c u (n :: ns)) {kind : Kind} {next : String}
    (refers : n.reference? = some (kind, next)) {t t' : Template}
    (found : (s.resolve? kind next).1.result = .ok (some t')) (same : t.nodes = t'.nodes) :
    s.At page (c.child next n.pos.line) t' t.nodes :=
  ⟨.further h.led h.first refers found, .inl fun _ member => .here (same ▸ member)⟩

theorem At.inComponent (h : s.At page c u (n :: ns)) {next : String}
    (refers : n.reference? = some (.component, next)) : ∀ m ∈ n.children, s.Content page m := by
  intro m member
  rcases h.first with own | content
  · exact ⟨_, u, h.led.comes, n, own, ⟨next, refers⟩, .here member⟩
  · exact content.child member

theorem At.asRead (h : s.At page c u (n :: ns)) (templates : s.OnlyRead) (read : page.IsRead) :
    ∃ debug, n.AsRead debug := by
  rcases h.first with own | content
  · exact h.led.comes.asRead templates read own
  · exact content.asRead templates read

end

theorem tracedNothing : ∀ t ∈ ([] : List Task), s.Traced page t := List.forall_mem_nil _

theorem tracedOne {t : Task} (h : s.Traced page t) : ∀ t' ∈ [t], s.Traced page t' :=
  List.forall_mem_singleton.mpr h

section
variable {c : RenderContext} {scope : Scope} {u : Template} {n : Node Value}
  {ns : List (Node Value)} (sited : s.Sited page)
include sited

theorem placeTraced (h : s.At page c u ns) {value : Run Value}
    (given : Run.Meets (s.Settled page) value (s.holding page).value
      (Stage.Problem fun _ => True)) (escape : Bool) :
    Run.Meets (s.Settled page) (Stage.place (s.stage sink) c escape value)
      (fun ts => ∀ t ∈ ts, s.Traced page t) fun _ => True := by
  have confines := sited.confines sink
  have shown : Run.Meets (s.Settled page) (Stage.output? (s.stage sink) c value)
      (fun o => ∀ v, o = some v → (s.holding page).value v) fun _ => True :=
    Stage.outputMeets confines c given
  unfold Stage.place
  refine shown.bind fun found held => ?_
  split
  -- content keeps its scope, but goes under the context of the output
  · rename_i inner content names
    have value := held _ rfl
    obtain ⟨nodes, under⟩ := Value.holdsClosed.content _ _ _ value
    exact .pure (tracedOne ⟨under, u, h.content fun m member => (nodes m member).here⟩)
  · refine (Run.Meets.ofExcept (.of (fun _ _ => trivial) fun _ _ => trivial)).bind
      fun text _ => ?_
    split
    · exact .pure tracedNothing
    · exact (confines.emit _).bind fun _ _ => .pure tracedNothing
  · exact .pure tracedNothing

theorem referTraced (h : s.At page c u (n :: ns)) {kind : Kind} {name : String}
    (refers : n.reference? = some (kind, name)) {inside : Template → Run (List Task)}
    (each : ∀ t t', s.At page (c.child name n.pos.line) t' t.nodes →
      Run.Meets (s.Settled page) (inside t) (fun ts => ∀ t ∈ ts, s.Traced page t)
        fun _ => True) :
    Run.Meets (s.Settled page) (Stage.refer (s.stage sink) c kind name [] inside)
      (fun ts => ∀ t ∈ ts, s.Traced page t) fun _ => True := by
  have confines := sited.confines sink
  unfold Stage.refer
  split
  · exact (Stage.exceededMeets confines c kind name).bind fun _ _ => .pure tracedNothing
  · refine (resolveSettled sited.sound (Node.referenceOther refers) name).bind
      fun found stands => ?_
    split
    · rename_i t
      obtain ⟨t', before, same⟩ := stands t rfl
      exact each t t' (h.further refers before same)
    · exact (Stage.missingMeets confines c kind name).bind fun _ _ => .pure tracedNothing

theorem planTraced (h : s.At page c u (n :: ns)) (level : Nat)
    (names : Scope.Each (s.holding page).value scope) (sink : Sink) :
    Run.Meets (s.Settled page) (Stage.plan (s.stage sink) c level scope n)
      (fun ts => ∀ t ∈ ts, s.Traced page t) fun _ => True := by
  have confines := sited.confines sink
  have closed := confines.closed
  have inside := h.inside
  cases n with
  | text pos content =>
    rw [Stage.plan]
    split
    · exact .pure tracedNothing
    · exact (confines.emit _).bind fun _ _ => .pure tracedNothing
  | lookup pos path escape filters =>
    rw [Stage.plan]
    exact placeTraced sited h (Stage.applyFiltersMeet confines c names filters
      (fun _ _ _ _ _ => trivial) (closed.values.resolve _ names path)) escape
  | call pos name args escape filters =>
    rw [Stage.plan]
    exact placeTraced sited h ((Stage.applyHelperMeets confines c names name args
      fun _ _ _ _ _ => trivial).bind fun v held => Stage.applyFiltersMeet confines c names filters
        (fun _ _ _ _ _ => trivial) held) escape
  | cond pos condition children =>
    rw [Stage.plan]
    refine .pure ?_
    split
    · exact tracedOne ⟨names, u, inside⟩
    · exact tracedNothing
  | each pos target binder children =>
    rw [Stage.plan]
    refine .pure ?_
    split
    · rename_i items found
      intro t member
      obtain ⟨i, bound, rfl⟩ := List.mem_mapIdx.mp member
      have item := closed.values.items _ items (closed.values.resolve _ names target) found _
        (List.getElem_mem bound)
      exact ⟨Stage.loopScopeHolds closed.values names binder items.length i item, u, inside⟩
    · exact tracedNothing
  | embed pos name props =>
    rw [Stage.plan]
    have refers : (Node.embed pos name props : Node Value).reference? = some (.embed, name) := rfl
    refine referTraced sited h refers fun t t' there => ?_
    refine (Run.Meets.ofExcept (.of (fun layer read => Stage.entriesHold closed.values names read)
      fun _ _ => trivial)).bind fun layer own => .pure (tracedOne ?_)
    exact ⟨Scope.eachCons own names, t', there⟩
  | component pos name props children =>
    rw [Stage.plan]
    split
    · exact .pure (tracedOne ⟨names, u, inside⟩)
    · rename_i tag
      have refers : (Node.component pos name props children).reference? =
          some (.component, name) := if_neg tag
      refine referTraced sited h refers fun t t' there => .pure (tracedOne ?_)
      obtain ⟨debug, asRead⟩ := h.asRead sited.templates sited.read
      have children := fun m member => (contentEvery (h.inComponent refers) m member).holds
        (fun _ content => (content.asRead sited.templates sited.read).choose_spec.props)
        fun _ content => content
      -- the children go into the scope as content, whatever template they stand in
      have own := Stage.componentLayerHolds closed.values closed.children
        (fun ns within => closed.content level ns scope within names) asRead.props.holds
        children
      exact ⟨Scope.eachCons own names, t', there⟩
  | layout pos props children =>
    obtain ⟨debug, asRead⟩ := h.asRead sited.templates sited.read
    exact absurd rfl (asRead.layout pos props children)
  | diagnostic pos code message source =>
    rw [Stage.plan]
    exact (confines.emit _).bind fun _ _ => .pure tracedNothing

end

def renderAfter (s : Session) (page : Template) (values : Layer) (o : RenderOptions) (sink : Sink)
    (k : Nat) : Progress :=
  let stage : Stage := (s.stage sink)
  stage.next^[k] (stage.begin (.template page) values o { cache := s.cache, objects := s.objects })

theorem beginTraced (sited : s.Sited page) (sink : Sink)
    (alone : (Page.template page).layout? o.layout = none)
    (outside : s.Supplies (s.Content page) values o) :
    (s.renderAfter page values o sink 0).Each (s.Traced page) (s.Settled page) := by
  have settled : s.Settled page
      { cache := s.cache, objects := s.objects, metadata := o.metadata } :=
    ⟨fun _ _ _ _ => rfl, outside.metadata⟩
  have outer : Scope.Each (s.holding page).value [[], values, s.engine.globals] :=
    Scope.eachCons (List.forall_mem_nil _) (Scope.eachCons outside.values
      (Scope.eachCons outside.globals (List.forall_mem_nil _)))
  obtain ⟨_, _, made⟩ := sited.read
  have lists : page.Lists _ fun _ => True := made.lists fun _ _ => trivial
  unfold renderAfter Stage.begin
  rw [Function.iterate_zero_apply]
  split
  · refine ⟨tracedOne ?_, settled⟩
    unfold Stage.opening
    rw [alone]
    refine ⟨?_, page, .start, .inl fun _ member => .here member⟩
    dsimp only
    split
    · exact outer
    · exact Scope.eachCons lists.data.holds outer
  · exact settled

theorem afterTraced (sited : s.Sited page) (sink : Sink)
    (alone : (Page.template page).layout? o.layout = none)
    (outside : s.Supplies (s.Content page) values o) (k : Nat) :
    (s.renderAfter page values o sink k).Each (s.Traced page) (s.Settled page) := by
  refine Stage.stepsKeep (fun c level scope n ns first => ?_)
    (beginTraced sited sink alone outside) k
  obtain ⟨names, u, place⟩ := first
  exact ⟨⟨names, u, place.rest⟩, (planTraced sited place level names sink).keeps⟩

/- Wherever a render is, the chain of references leads there from the page. Each entry has the name
of a template, and the line of a reference in that template or in content, which is rendered where a
component puts it; so where no content refers to anything, all of them are references of the
templates that they name. -/
theorem chainLeads (templates : s.OnlyRead) (sound : s.engine.loader.Sound) (read : page.IsRead)
    (alone : (Page.template page).layout? o.layout = none)
    (outside : s.Supplies (s.Content page) values o) {sink : Sink} {k : Nat} {tasks : List Task}
    {w : World} (there : s.renderAfter page values o sink k = .going tasks w) :
    ∀ t ∈ tasks,
      (∃ u, s.Led page t.context.stack t.context.templateName u ∧
        ((∀ n ∈ t.nodes, n.Among u.nodes) ∨ ∀ n ∈ t.nodes, s.Content page n)) ∧
      (∀ e ∈ t.context.stack, ∃ name u, s.Comes page name u ∧
        RenderContext.nameInChain name = e.1 ∧ (u.RefersAt e.2 ∨ s.ContentAt page e.2)) ∧
      ((∀ n, s.Content page n → n.reference? = none) → ∀ e ∈ t.context.stack, ∃ name u,
        s.Comes page name u ∧ RenderContext.nameInChain name = e.1 ∧ u.RefersAt e.2) := by
  intro t member
  have sited : s.Sited page := ⟨templates, read, sound, outside.host⟩
  have traced := afterTraced sited sink alone outside k
  rw [there] at traced
  obtain ⟨_, u, place⟩ := traced.1 t member
  refine ⟨⟨u, place.led, place.nodes⟩, place.led.sites, fun plain e entry => ?_⟩
  obtain ⟨name, u', known, same, site⟩ := place.led.sites e entry
  refine ⟨name, u', known, same, site.resolve_right ?_⟩
  rintro ⟨n, content, refers, _⟩
  rw [plain n content] at refers
  cases refers

def carrierNodes : List (Node Value) := [.lookup .start "$children" true []]

def carrier : Template := ⟨carrierNodes, .of carrierNodes [] none, "Box", none⟩

def carriedCard : Template := ⟨[.text .start "x"], .of [.text .start "x"] [] none, "Card", none⟩

def carried : Session where
  engine := { registered := { components := [("Box", carrier), ("Card", carriedCard)] } }
  host := Stage.echoHost

def carriedNodes : List (Node Value) :=
  [.text ⟨1, 0⟩ "\n\n", .component ⟨3, 0⟩ "Box" [] [.component ⟨3, 5⟩ "Card" [] []]]

def carriedPage : Template := ⟨carriedNodes, .of carriedNodes [] none, "page", none⟩

theorem carriedRead : carried.OnlyRead := by
  refine ⟨fun kind e member => ?_, List.forall_mem_nil _⟩
  cases kind with
  | component =>
    rcases List.mem_pair.mp member with rfl | rfl
    · exact ⟨false, [], { name := some "Box" }, "\x7b\x7b $children \x7d\x7d", rfl, by cbv⟩
    · exact ⟨false, [], { name := some "Card" }, "x", rfl, by cbv⟩
  | _ => cases member

theorem carriedPageRead : carriedPage.IsRead :=
  ⟨false, [], { name := some "page" }, "\n\n<Box><Card/></Box>", rfl, by cbv⟩

theorem carriedLeads : ∃ tasks w, carried.renderAfter carriedPage [] {} .plain 4 = .going tasks w ∧
    ∀ t ∈ tasks, (∃ u, carried.Led carriedPage t.context.stack t.context.templateName u) ∧
      ∀ e ∈ t.context.stack, ∃ name u, carried.Comes carriedPage name u ∧
        RenderContext.nameInChain name = e.1 ∧
        (u.RefersAt e.2 ∨ carried.ContentAt carriedPage e.2) := by
  have outside : carried.Supplies (carried.Content carriedPage) [] {} :=
    ⟨echoKeeps (.scalar rfl), List.forall_mem_nil _, List.forall_mem_nil _, List.forall_mem_nil _⟩
  obtain ⟨tasks, w, there⟩ :
      ∃ tasks w, carried.renderAfter carriedPage [] {} .plain 4 = .going tasks w := ⟨_, _, rfl⟩
  refine ⟨tasks, w, there, fun t member => ?_⟩
  obtain ⟨⟨u, led, _⟩, sites, _⟩ :=
    chainLeads carriedRead trivial carriedPageRead rfl outside there t member
  exact ⟨⟨u, led⟩, sites⟩

/- The card is come across in the box, at a line that the box does not have. -/
theorem lineElsewhere : carried.OnlyRead ∧ carriedPage.IsRead ∧
    (Page.template carriedPage).layout? none = none ∧
    (carried.resolve? .component "Box").1.result = .ok (some carrier) ∧
    (∃ tasks w, carried.renderAfter carriedPage [] {} .plain 4 = .going tasks w ∧
      ∃ t ∈ tasks, t.context.stack = [("page", 3), ("Box", 3)]) ∧
    ∀ n : Node Value, n.Among carrier.nodes → n.pos.line ≠ 3 := by
  refine ⟨carriedRead, carriedPageRead, rfl, rfl, ⟨_, _, rfl, _, List.mem_cons_self, rfl⟩, ?_⟩
  intro n among
  have every : ∀ m ∈ carrier.nodes, m.Every fun m => m.pos.line ≠ 3 := by
    intro m member
    rw [List.mem_singleton.mp member]
    exact .intro (by decide) (List.forall_mem_nil _)
  exact Node.everyAmong every among

end Session
end Medley
