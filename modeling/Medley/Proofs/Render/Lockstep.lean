import Medley.Proofs.Render.Names
import Medley.Proofs.Render.Steps

/-! Two renders side by side. Where the single steps of two stages go together, in what they write,
in what functions give and in what references stand for, so do whole renders: both take the same
branches under the same scopes, and fail alike. -/
namespace Medley

/- Two results that go together, or one and the same fault. -/
inductive Agree {α β : Type} (Q : α → β → Prop) : Except Fault α → Except Fault β → Prop where
  | ok {a b} (h : Q a b) : Agree Q (.ok a) (.ok b)
  | error (fault : Fault) : Agree Q (.error fault) (.error fault)

theorem Agree.imp {α β : Type} {Q S : α → β → Prop} (weaker : ∀ a b, Q a b → S a b)
    {x : Except Fault α} {y : Except Fault β} (h : Agree Q x y) : Agree S x y := by
  cases h with
  | ok h => exact .ok (weaker _ _ h)
  | error fault => exact .error fault

theorem Agree.same {α : Type} {Q : α → Prop} {x : Except Fault α}
    (h : ∀ a, x = .ok a → Q a) : Agree (fun a b => b = a ∧ Q a) x x := by
  cases x with
  | ok a => exact .ok ⟨rfl, h a rfl⟩
  | error fault => exact .error fault

theorem Agree.eq {α : Type} {x y : Except Fault α} (h : Agree Eq x y) : y = x := by
  cases h with
  | ok h => rw [h]
  | error fault => rfl

namespace Run

/-- From worlds that are related two steps come to worlds that are related, with results that go
together. -/
def Matches {α β : Type} (R : World → World → Prop) (m : Run α) (m' : Run β) (Q : α → β → Prop) :
    Prop := ∀ w w', R w w' → R (m.on w).2 (m'.on w').2 ∧ Agree Q (m.on w).1 (m'.on w').1

variable {α β γ δ : Type} {R : World → World → Prop} {Q : α → β → Prop} {S : γ → δ → Prop}

theorem Matches.pure {a : α} {b : β} (h : Q a b) : Matches R (Pure.pure a) (Pure.pure b) Q :=
  fun _ _ related => ⟨related, .ok h⟩

theorem Matches.throw (fault : Fault) : Matches R (throw fault : Run α) (throw fault : Run β) Q :=
  fun _ _ related => ⟨related, .error fault⟩

theorem Matches.bind {m : Run α} {m' : Run β} {f : α → Run γ} {f' : β → Run δ}
    (first : Matches R m m' Q) (second : ∀ a b, Q a b → Matches R (f a) (f' b) S) :
    Matches R (m >>= f) (m' >>= f') S := by
  intro w w' related
  obtain ⟨after, results⟩ := first w w' related
  cases left : m.on w with
  | mk x v =>
    cases right : m'.on w' with
    | mk y v' =>
      rw [left, right] at after results
      cases results with
      | ok h =>
        rw [onBindOk left, onBindOk right]
        exact second _ _ h v v' after
      | error fault =>
        rw [onBindError left, onBindError right]
        exact ⟨after, .error fault⟩

theorem Matches.ofExcept {x : Except Fault α} {y : Except Fault β} (h : Agree Q x y) :
    Matches R (Run.ofExcept x) (Run.ofExcept y) Q := by
  cases h with
  | ok h => exact .pure h
  | error fault => exact .throw fault

theorem Matches.attempt {m : Run α} {m' : Run β} (h : Matches R m m' Q) :
    Matches R (Run.attempt m) (Run.attempt m') (Agree Q) := fun w w' related =>
  ⟨(h w w' related).1, .ok (h w w' related).2⟩

theorem Matches.within {c c' : RenderContext} {I : World → World → Prop} {m : Run α} {m' : Run β}
    (enter : ∀ w w', R w w' → I (w.enter c) (w'.enter c'))
    (leave : ∀ w w', I w w' → R w.leave w'.leave) (h : Matches I m m' Q) :
    Matches R (Run.within c m) (Run.within c' m') Q := by
  intro w w' related
  rw [onWithin, onWithin]
  obtain ⟨after, results⟩ := h _ _ (enter w w' related)
  exact ⟨leave _ _ after, results⟩

end Run

/- What two renders may come across: values, nodes, and names that are referred to. -/
structure Bounds where
  value : Value → Prop
  node : Node Value → Prop
  name : String → Prop

namespace Bounds

structure Closed (b : Bounds) : Prop where
  values : Value.Closed b.value
  escaped : Value.TakesEscaped b.value
  children : ∀ n, b.node n → ∀ m ∈ n.children, b.node m
  props : ∀ n, b.node n → Layer.Each b.value n.props
  content : ∀ level ns scope, (∀ n ∈ ns, b.node n) → Scope.Each b.value scope →
    b.value (.fragment level ns scope)
  nodes : ∀ level ns scope, b.value (.fragment level ns scope) → ∀ n ∈ ns, b.node n
  embed : ∀ pos name props, b.node (.embed pos name props) → b.name name
  component : ∀ pos name props children, b.node (.component pos name props children) →
    name ≠ Node.slotTag → b.name name
  layout : ∀ pos props children, b.node (.layout pos props children) →
    b.name (Value.layoutName props)

structure Holds (b : Bounds) (t : Template) : Prop where
  nodes : ∀ n ∈ t.nodes, b.node n
  data : Layer.Each b.value t.metadata.frontmatter
  layout : ∀ name, t.metadata.layout = some name → b.name name

inductive Found (b : Bounds) : Option Template → Option Template → Prop where
  | none : Found b none none
  | some {t t' : Template} (nodes : t'.nodes = t.nodes) (metadata : t'.metadata = t.metadata)
      (holds : b.Holds t) : Found b (some t) (some t')

def Same (b : Bounds) (v v' : Value) : Prop := v' = v ∧ b.value v

def all : Bounds := ⟨fun _ => True, fun _ => True, fun _ => True⟩

theorem allClosed : all.Closed where
  values := Value.closedAlways
  escaped := ⟨fun _ => trivial, fun _ _ _ => trivial⟩
  children _ _ _ _ := trivial
  props _ _ _ _ := trivial
  content _ _ _ _ _ := trivial
  nodes _ _ _ _ _ _ := trivial
  embed _ _ _ _ := trivial
  component _ _ _ _ _ _ := trivial
  layout _ _ _ _ := trivial

theorem allFound (x : Except Fault (Option Template)) : Agree all.Found x x := by
  cases x with
  | error fault => exact .error fault
  | ok o =>
    cases o with
    | none => exact .ok .none
    | some t =>
      exact .ok (.some rfl rfl ⟨fun _ _ => trivial, fun _ _ => trivial, fun _ _ => trivial⟩)

end Bounds

namespace Stage

/- Templates nest equally deep in contexts that are related. Messages may say how deep they nest, so
the limits are the same unless there are none. -/
structure Even (E : RenderContext → RenderContext → Prop) : Prop where
  room : ∀ c c', E c c' → c'.depthExceeded = c.depthExceeded
  limit : ∀ c c', E c c' → c'.maxDepth = c.maxDepth ∨ (c.debug = false ∧ c'.debug = false)
  child : ∀ c c' name line, E c c' → E (c.child name line) (c'.child name line)

/- Single steps of two stages go together, between worlds that `R` relates and in contexts that `E`
relates. -/
structure Lockstep (R : World → World → Prop) (E : RenderContext → RenderContext → Prop)
    (b : Bounds) (s s' : Stage) : Prop where
  closed : b.Closed
  contexts : Even E
  members : s'.host.members = s.host.members
  space : s'.room = s.room
  helpers : ∀ name, s'.engine.helper? name = s.engine.helper? name
  filters : ∀ name, s'.engine.filter? name = s.engine.filter? name
  logs : ∀ w w' l l', R w w' → R { w with logs := l } { w' with logs := l' }
  literal : ∀ text, Run.Matches R (Run.emit s.sink (.literal text))
    (Run.emit s'.sink (.literal text)) fun _ _ => True
  value : ∀ text, Run.Matches R (Run.emit s.sink (.value text))
    (Run.emit s'.sink (.value text)) fun _ _ => True
  comment : ∀ c c' code message, E c c' →
    Run.Matches R (s.comment c code message) (s'.comment c' code message) fun _ _ => True
  diagnostic : ∀ pos code message source, b.node (.diagnostic pos code message source) →
    Run.Matches R (Run.emit s.sink (.diagnostic code message))
      (Run.emit s'.sink (.diagnostic code message)) fun _ _ => True
  apply : ∀ (f : Function) c c' args, E c c' → (∀ a ∈ args, b.value a) →
    Run.Matches R (Run.within c (f.apply s.host s.engine.translator args))
      (Run.within c' (f.apply s'.host s'.engine.translator args)) b.Same
  resolve : ∀ kind name, kind ≠ .page → b.name name →
    Run.Matches R (s.engine.resolve? kind name) (s'.engine.resolve? kind name) b.Found

theorem resolveMembers {s s' : Stage} (same : s'.host.members = s.host.members) :
    s'.resolve = s.resolve := by
  funext scope path
  rw [resolve, resolve, same]

theorem argumentMembers {s s' : Stage} (same : s'.host.members = s.host.members) :
    s'.argument = s.argument := by
  funext scope token
  rw [argument, argument, resolveMembers same]

section
variable {R : World → World → Prop} {E : RenderContext → RenderContext → Prop} {b : Bounds}
  {s s' : Stage} (pair : Lockstep R E b s s')
include pair

theorem Lockstep.spent : Lockstep R E b s.spent s'.spent :=
  { pair with space := congrArg (· - 1) pair.space }

theorem warnMatches (c c' : RenderContext) (message message' : String) :
    Run.Matches R (warn c message) (warn c' message') fun _ _ => True := by
  intro w w' related
  have logs := fun l l' => pair.logs w w' l l' related
  unfold warn
  split <;> split
  · exact ⟨logs _ _, .ok trivial⟩
  · exact ⟨logs _ w'.logs, .ok trivial⟩
  · exact ⟨logs w.logs _, .ok trivial⟩
  · exact ⟨related, .ok trivial⟩

variable {c c' : RenderContext} (even : E c c') {scope : Scope}
include even

theorem callMatches (code : Code) (what : String) (f : Function) {args : List Value}
    (given : ∀ a ∈ args, b.value a) :
    Run.Matches R (s.call c code what f args) (s'.call c' code what f args) b.Same := by
  unfold call
  refine (pair.apply f c c' args even given).attempt.bind fun x y results => ?_
  cases results with
  | ok same => exact .pure same
  | error fault => exact (warnMatches pair c c' _ _).bind fun _ _ _ => .throw _

theorem applyFilterMatches (names : Scope.Each b.value scope) {v : Value} (held : b.value v)
    (f : FilterCall) :
    Run.Matches R (s.applyFilter c scope v f) (s'.applyFilter c' scope v f) b.Same := by
  unfold applyFilter
  rw [pair.filters f.name, argumentMembers pair.members]
  dsimp only
  cases s.engine.filter? f.name with
  | none => exact .throw _
  | some g =>
    refine (Run.Matches.ofExcept (.same fun args =>
      argumentsHold pair.closed.values names)).bind fun args args' same => ?_
    obtain ⟨rfl, given⟩ := same
    refine callMatches pair even _ _ g fun a member => ?_
    rcases List.mem_cons.mp member with rfl | later
    · exact held
    · exact given a later

theorem applyFiltersMatch (names : Scope.Each b.value scope) (filters : List FilterCall)
    {v : Value} (held : b.value v) :
    Run.Matches R (s.applyFilters c scope filters v)
      (s'.applyFilters c' scope filters v) b.Same := by
  unfold applyFilters
  induction filters generalizing v with
  | nil => exact .pure ⟨rfl, held⟩
  | cons f filters ih =>
    rw [List.foldlM_cons, List.foldlM_cons]
    refine (applyFilterMatches pair even names held f).bind fun v v' same => ?_
    obtain ⟨rfl, next⟩ := same
    exact ih next

theorem applyHelperMatches (names : Scope.Each b.value scope) (name : String)
    (args : List String) :
    Run.Matches R (s.applyHelper c scope name args) (s'.applyHelper c' scope name args) b.Same := by
  unfold applyHelper
  rw [pair.helpers name, argumentMembers pair.members]
  dsimp only
  cases s.engine.helper? name with
  | none => exact .throw _
  | some f =>
    refine (Run.Matches.ofExcept (.same fun args =>
      argumentsHold pair.closed.values names)).bind fun args args' same => ?_
    obtain ⟨rfl, given⟩ := same
    exact callMatches pair even _ _ f given

theorem outputMatches {value value' : Run Value} (given : Run.Matches R value value' b.Same) :
    Run.Matches R (s.output? c value) (s'.output? c' value')
      fun o o' => o' = o ∧ ∀ v, o = some v → b.value v := by
  unfold output?
  refine given.attempt.bind fun x y results => ?_
  cases results with
  | ok same =>
    obtain ⟨rfl, held⟩ := same
    refine .pure ⟨rfl, fun v found => ?_⟩
    cases found
    exact held
  | error fault =>
    cases fault with
    | diagnostic code message =>
      refine (pair.comment c c' code message even).bind fun _ _ _ => .pure ⟨rfl, fun v absent => ?_⟩
      cases absent
    | _ => exact .throw _

theorem exceededMatches (kind : Kind) (name : String) :
    Run.Matches R (s.exceeded c kind name) (s'.exceeded c' kind name) fun _ _ => True := by
  unfold exceeded
  dsimp only
  refine (warnMatches pair c c' _ _).bind fun _ _ _ => ?_
  rcases pair.contexts.limit c c' even with limit | ⟨quiet, quiet'⟩
  · rw [limit]
    exact pair.comment c c' _ _ even
  · unfold comment
    rw [quiet, quiet']
    exact .pure trivial

theorem missingMatches (kind : Kind) (name : String) :
    Run.Matches R (s.missing c kind name) (s'.missing c' kind name)
      fun _ _ => True := pair.comment c c' _ _ even

end

theorem layoutNameProps (data : Layer) (name : String) :
    Value.layoutName (layoutProps data name) = name := by
  simp [Value.layoutName, layoutProps, lookupSetProp, Value.written]

variable {R : World → World → Prop} {E : RenderContext → RenderContext → Prop} {b : Bounds}

-- the measure is that of the renderer
mutual

theorem nodesMatch {s s' : Stage} (pair : Lockstep R E b s s') {c c' : RenderContext}
    (even : E c c')
    (level : Nat) {scope : Scope} (names : Scope.Each b.value scope) (ns : List (Node Value))
    (inside : ∀ n ∈ ns, b.node n) :
    Run.Matches R (s.nodes c level scope ns) (s'.nodes c' level scope ns) fun _ _ => True := by
  cases ns with
  | nil =>
    rw [nodes, nodes]
    exact .pure trivial
  | cons n ns =>
    rw [nodes, nodes]
    refine (nodeMatches pair even level names n (inside n List.mem_cons_self)).bind fun _ _ _ => ?_
    exact nodesMatch pair even level names ns fun m member =>
      inside m (List.mem_cons_of_mem n member)
termination_by (s.room, c.remaining, level, sizeOf ns, 0)

theorem nodeMatches {s s' : Stage} (pair : Lockstep R E b s s') {c c' : RenderContext}
    (even : E c c') (level : Nat) {scope : Scope} (names : Scope.Each b.value scope)
    (n : Node Value)
    (here : b.node n) :
    Run.Matches R (s.node c level scope n) (s'.node c' level scope n) fun _ _ => True := by
  have closed := pair.closed
  have room := pair.contexts.room c c' even
  have nested := fun name line => pair.contexts.child c c' name line even
  have inside := closed.children n here
  cases n with
  | text pos content =>
    rw [node, node]
    split
    · exact .pure trivial
    · exact pair.literal content
  | lookup pos path escape filters =>
    rw [node, node, resolveMembers pair.members]
    exact writtenMatches pair even level escape
      (applyFiltersMatch pair even names filters (closed.values.resolve _ names path))
  | call pos name args escape filters =>
    rw [node, node]
    refine writtenMatches pair even level escape
      ((applyHelperMatches pair even names name args).bind fun v v' same => ?_)
    obtain ⟨rfl, held⟩ := same
    exact applyFiltersMatch pair even names filters held
  | cond pos condition children =>
    rw [node, node, resolveMembers pair.members]
    split
    · exact nodesMatch pair even level names children inside
    · exact .pure trivial
  | each pos target binder children =>
    rw [node, node, resolveMembers pair.members]
    cases found : (s.resolve scope target).items? with
    | some items =>
      exact eachMatches pair even level names binder children inside items.length 0 items
        (closed.values.items _ items (closed.values.resolve _ names target) found)
    | none => exact .pure trivial
  | embed pos name props =>
    rw [node, node, argumentMembers pair.members]
    by_cases h : c.depthExceeded = true
    · rw [dif_pos h, dif_pos (room.trans h)]
      exact exceededMatches pair even .embed name
    · have right : ¬ c'.depthExceeded = true := by rwa [room]
      have deeper := RenderContext.remaining_child_lt (by simpa using h) name pos.line
      rw [dif_neg h, dif_neg right]
      refine (pair.resolve .embed name nofun (closed.embed _ _ _ here)).bind fun o o' found => ?_
      cases found with
      | none => exact missingMatches pair even .embed name
      | @some t t' same _ holds =>
        refine (Run.Matches.ofExcept (.same fun layer =>
          entriesHold closed.values names)).bind fun layer layer' equal => ?_
        obtain ⟨rfl, own⟩ := equal
        rw [same]
        exact nodesMatch pair (nested name pos.line) level (Scope.eachCons own names) t.nodes
          holds.nodes
  | component pos name props children =>
    rw [node, node]
    by_cases slot : name = Node.slotTag
    · rw [if_pos slot, if_pos slot]
      exact nodesMatch pair even level names children inside
    · rw [if_neg slot, if_neg slot]
      by_cases h : c.depthExceeded = true
      · rw [dif_pos h, dif_pos (room.trans h)]
        exact exceededMatches pair even .component name
      · have right : ¬ c'.depthExceeded = true := by rwa [room]
        have deeper := RenderContext.remaining_child_lt (by simpa using h) name pos.line
        rw [dif_neg h, dif_neg right]
        refine (pair.resolve .component name nofun
          (closed.component _ _ _ _ here slot)).bind fun o o' found => ?_
        cases found with
        | none => exact missingMatches pair even .component name
        | @some t t' same _ holds =>
          have own : Layer.Each b.value (componentLayer level props children scope) :=
            componentLayerHolds closed.values closed.children
              (fun ns within => closed.content level ns scope within names)
              (closed.props _ here) inside
          dsimp only
          rw [same]
          exact nodesMatch pair (nested name pos.line) (level + 1) (Scope.eachCons own names)
            t.nodes holds.nodes
  | layout pos props children =>
    rw [node, node]
    exact layoutMatches pair even level names pos.line (closed.layout _ _ _ here)
      (closed.props _ here) children inside
  | diagnostic pos code message source =>
    rw [node, node]
    exact pair.diagnostic pos code message source here
termination_by (s.room, c.remaining, level, sizeOf n, 0)

theorem writtenMatches {s s' : Stage} (pair : Lockstep R E b s s') {c c' : RenderContext}
    (even : E c c') (level : Nat) (escape : Bool) {value value' : Run Value}
    (given : Run.Matches R value value' b.Same) :
    Run.Matches R (s.written c level escape value)
      (s'.written c' level escape value') fun _ _ => True := by
  rw [written, written]
  refine (outputMatches pair even given).bind fun o o' same => ?_
  obtain ⟨rfl, held⟩ := same
  cases o' with
  | none => exact .pure trivial
  | some v =>
    have value := held v rfl
    cases v with
    | fragment inner ns scope =>
      dsimp only
      split
      · exact nodesMatch pair even inner (pair.closed.values.names value) ns
          (pair.closed.nodes _ _ _ value)
      · rw [pair.space]
        split
        · rename_i space
          have less := roomSpent space
          exact nodesMatch pair.spent even inner (pair.closed.values.names value) ns
            (pair.closed.nodes _ _ _ value)
        · exact .throw _
    | _ =>
      refine (Run.Matches.ofExcept (.same fun _ _ => trivial)).bind fun text text' same => ?_
      obtain ⟨rfl, _⟩ := same
      split
      · exact .pure trivial
      · exact pair.value _
termination_by (s.room, c.remaining, level, 0, 0)

theorem eachMatches {s s' : Stage} (pair : Lockstep R E b s s') {c c' : RenderContext}
    (even : E c c') (level : Nat) {scope : Scope} (names : Scope.Each b.value scope)
    (binder : String)
    (children : List (Node Value)) (inside : ∀ n ∈ children, b.node n) (length index : Nat)
    (items : List Value) (held : ∀ v ∈ items, b.value v) :
    Run.Matches R (s.each c level scope binder children length index items)
      (s'.each c' level scope binder children length index items) fun _ _ => True := by
  cases items with
  | nil =>
    rw [each, each]
    exact .pure trivial
  | cons item items =>
    rw [each, each]
    have own := loopScopeHolds pair.closed.values names binder length index
      (held item List.mem_cons_self)
    refine (nodesMatch pair even level own children inside).bind fun _ _ _ => ?_
    exact eachMatches pair even level names binder children inside length (index + 1) items
      fun v member => held v (List.mem_cons_of_mem item member)
termination_by (s.room, c.remaining, level, sizeOf children, items.length + 1)

theorem layoutMatches {s s' : Stage} (pair : Lockstep R E b s s') {c c' : RenderContext}
    (even : E c c') (level : Nat) {scope : Scope} (names : Scope.Each b.value scope) (line : Int)
    {props : Layer}
    (known : b.name (Value.layoutName props)) (own : Layer.Each b.value props)
    (children : List (Node Value)) (inside : ∀ n ∈ children, b.node n) :
    Run.Matches R (s.layout c level scope line props children)
      (s'.layout c' level scope line props children) fun _ _ => True := by
  have closed := pair.closed
  have room := pair.contexts.room c c' even
  have nested := fun name line => pair.contexts.child c c' name line even
  have page : Scope.Each b.value (props :: scope) := Scope.eachCons own names
  rw [layout, layout]
  dsimp only
  by_cases h : c.depthExceeded = true
  · rw [dif_pos h, dif_pos (room.trans h)]
    exact (exceededMatches pair even .layout _).bind fun _ _ _ =>
      nodesMatch pair even level page children inside
  · have right : ¬ c'.depthExceeded = true := by rwa [room]
    have deeper := RenderContext.remaining_child_lt (by simpa using h) (Value.layoutName props) line
    rw [dif_neg h, dif_neg right]
    refine (pair.resolve .layout _ nofun known).bind fun o o' found => ?_
    cases found with
    | none =>
      exact (missingMatches pair even .layout _).bind fun _ _ _ =>
        nodesMatch pair even level page children inside
    | @some t t' same data holds =>
      have content : b.value (.fragment level children (props :: scope)) :=
        closed.content level children _ inside page
      have around : Layer.Each b.value
          [("content", .fragment level children (props :: scope)),
            ("$content", .fragment level children (props :: scope))] := by
        intro e member
        simp only [List.mem_cons, List.not_mem_nil, or_false] at member
        rcases member with rfl | rfl <;> exact content
      have seen := Scope.eachCons own (Scope.eachCons around names)
      have direct := nodesMatch pair (nested (Value.layoutName props) line) (level + 1) seen t.nodes
        holds.nodes
      dsimp only
      rw [same, data]
      cases parent : t.metadata.layout with
      | none => exact direct
      | some name =>
        dsimp only
        split
        · exact direct
        · have named : b.name (Value.layoutName (layoutProps t.metadata.frontmatter name)) := by
            rw [layoutNameProps]
            exact holds.layout name parent
          exact layoutMatches pair (nested (Value.layoutName props) line) (level + 1) seen line named
            (Layer.eachSetProp holds.data _ (closed.values.text name)) t.nodes holds.nodes
termination_by (s.room, c.remaining, level, sizeOf children, 1)

end

def start (s : Stage) (page : Page) : RenderContext :=
  { templateName := page.name?, maxDepth := s.engine.maxDepth, debug := s.engine.debug }

section
variable {s s' : Stage} (pair : Lockstep R E b s s') (page : Page)
  (even : E (s.start page) (s'.start page)) (beneath : s'.engine.globals = s.engine.globals)
  (usable : s'.sink.unusable? = s.sink.unusable?) (values : Layer)
include pair even beneath usable

/- Renders of one page go together, in one and the same layout. -/
theorem pagesMatch {o o' : RenderOptions} (wrapped : o'.layout = o.layout)
    (globals : Layer.Each b.value s.engine.globals)
    (given : Layer.Each b.value values) (data : Layer.Each b.value page.data)
    (nodes : ∀ n ∈ page.body, b.node n)
    (layout : ∀ name, page.layout? o.layout = some name → b.name name) (w w' : World)
    (related : R { w with metadata := o.metadata } { w' with metadata := o'.metadata }) :
    R ((s.page page values o).on w).2 ((s'.page page values o').on w').2 ∧
      Agree (fun _ _ => True) ((s.page page values o).on w).1
        ((s'.page page values o').on w').1 := by
  have changed : ∀ (o : RenderOptions) (w : World),
      (modify fun w => { w with metadata := o.metadata } : Run Unit).on w =
        (.ok (), { w with metadata := o.metadata }) := fun _ _ => rfl
  have outer : Scope.Each b.value [[], values, s.engine.globals] :=
    Scope.eachCons (List.forall_mem_nil _)
      (Scope.eachCons given (Scope.eachCons globals (List.forall_mem_nil _)))
  unfold Stage.page
  rw [Run.onBindOk (changed o w), Run.onBindOk (changed o' w'), usable]
  cases s.sink.unusable? <|> page.refusal? with
  | some fault => exact ⟨related, .error fault⟩
  | none =>
    dsimp only
    rw [beneath, wrapped]
    cases asked : page.layout? o.layout with
    | some name =>
      have known : b.name (Value.layoutName (layoutProps page.data name)) := by
        rw [layoutNameProps]
        exact layout name asked
      exact layoutMatches pair even 0 outer _ known
        (Layer.eachSetProp data _ (pair.closed.values.text name)) page.body nodes _ _ related
    | none =>
      refine nodesMatch pair even 0 ?_ page.body nodes _ _ related
      split
      · exact outer
      · exact Scope.eachCons data outer

theorem pageMatches (o : RenderOptions) (globals : Layer.Each b.value s.engine.globals)
    (given : Layer.Each b.value values) (data : Layer.Each b.value page.data)
    (nodes : ∀ n ∈ page.body, b.node n)
    (layout : ∀ name, page.layout? o.layout = some name → b.name name) (w w' : World)
    (related : R { w with metadata := o.metadata } { w' with metadata := o.metadata }) :
    R ((s.page page values o).on w).2 ((s'.page page values o).on w').2 ∧
      Agree (fun _ _ => True) ((s.page page values o).on w).1
        ((s'.page page values o).on w').1 :=
  pagesMatch pair page even beneath usable values rfl globals given data nodes layout w w' related

end

end Stage
end Medley
