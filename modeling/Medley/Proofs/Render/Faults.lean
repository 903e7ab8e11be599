import Medley.Proofs.Render.Lockstep
import Medley.Proofs.Template.Overlong

/-! How a render can fail. A problem of an output is confined to it, whatever function of whatever
program it comes from: faults that are left are those of the sink, of loading, of arguments that
cannot be read, and of values that cannot be written. If all of these are of a kind, so is the fault
of a render. -/
namespace Medley

inductive Within {α : Type} (Q : α → Prop) (F : Fault → Prop) : Except Fault α → Prop where
  | ok {a} (h : Q a) : Within Q F (.ok a)
  | error {fault} (h : F fault) : Within Q F (.error fault)

theorem Within.of {α : Type} {Q : α → Prop} {F : Fault → Prop} {x : Except Fault α}
    (result : ∀ a, x = .ok a → Q a) (fault : ∀ f, x = .error f → F f) : Within Q F x := by
  cases x with
  | ok a => exact .ok (result a rfl)
  | error f => exact .error (fault f rfl)

theorem Within.imp {α : Type} {Q Q' : α → Prop} {F F' : Fault → Prop} {x : Except Fault α}
    (h : Within Q F x) (result : ∀ a, Q a → Q' a) (fault : ∀ f, F f → F' f) :
    Within Q' F' x := by
  cases h with
  | ok h => exact .ok (result _ h)
  | error h => exact .error (fault _ h)

namespace Run

/-- A step keeps a property of the world, gives results of a kind, and fails by faults of a kind. -/
def Meets {α : Type} (P : World → Prop) (m : Run α) (Q : α → Prop) (F : Fault → Prop) : Prop :=
  ∀ w, P w → P (m.on w).2 ∧ Within Q F (m.on w).1

variable {α β : Type} {P : World → Prop} {Q : α → Prop} {S : β → Prop} {F : Fault → Prop}

theorem Meets.pure {a : α} (h : Q a) : Meets P (Pure.pure a) Q F := fun _ inv => ⟨inv, .ok h⟩

theorem Meets.throw {fault : Fault} (h : F fault) : Meets P (throw fault : Run α) Q F :=
  fun _ inv => ⟨inv, .error h⟩

theorem Meets.bind {m : Run α} {f : α → Run β} (first : Meets P m Q F)
    (second : ∀ a, Q a → Meets P (f a) S F) : Meets P (m >>= f) S F := by
  intro w inv
  obtain ⟨kept, result⟩ := first w inv
  cases same : m.on w with
  | mk answer w' =>
    rw [same] at kept result
    cases result with
    | ok h =>
      rw [onBindOk same]
      exact second _ h w' kept
    | error h =>
      rw [onBindError same]
      exact ⟨kept, .error h⟩

theorem Meets.imp {m : Run α} {Q' : α → Prop} {F' : Fault → Prop} (h : Meets P m Q F)
    (result : ∀ a, Q a → Q' a) (fault : ∀ f, F f → F' f) : Meets P m Q' F' := fun w inv =>
  ⟨(h w inv).1, (h w inv).2.imp result fault⟩

theorem Meets.keeps {m : Run α} (h : Meets P m Q F) : Keeps P m Q := by
  intro w inv
  obtain ⟨kept, result⟩ := h w inv
  refine ⟨kept, fun a found => ?_⟩
  rw [found] at result
  cases result with
  | ok held => exact held

theorem Meets.ofExcept {x : Except Fault α} (h : Within Q F x) :
    Meets P (Run.ofExcept x) Q F := by
  cases h with
  | ok h => exact .pure h
  | error h => exact .throw h

theorem Meets.attempt {m : Run α} (h : Meets P m Q F) {F' : Fault → Prop} :
    Meets P (Run.attempt m) (Within Q F) F' := fun w inv => ⟨(h w inv).1, .ok (h w inv).2⟩

end Run

namespace Node

def tokens {α : Type} : Node α → List String
  | lookup _ _ _ filters => filters.flatMap FilterCall.args
  | call _ _ args _ filters => args ++ filters.flatMap FilterCall.args
  | embed _ _ props => props.map Prod.snd
  | _ => []

end Node

def World.noting (w : World) (debug : Bool) (code : Code) (message : String) : World :=
  if debug then { w with chunks := .comment code.text message :: w.chunks } else w

namespace Stage

/- A problem that is confined to its node, or a fault of a kind. -/
def Problem (F : Fault → Prop)
    (f : Fault) : Prop := F f ∨ ∃ code message, f = .diagnostic code message

/- Single steps of a stage keep a property of worlds, come across nothing beyond the bounds, and
fail by faults of a kind. Functions may fail in any way. -/
structure Confines (P : World → Prop) (b : Bounds) (F : Fault → Prop) (s : Stage) : Prop where
  closed : b.Closed
  deep : F .tooDeep
  logs : ∀ w l, P w → P { w with logs := l }
  emit : ∀ chunk, Run.Meets P (Run.emit s.sink chunk) (fun _ => True) F
  token : ∀ n, b.node n → ∀ token ∈ n.tokens, ∀ scope fault,
    s.argument scope token = .error fault → F fault
  output : ∀ escape v fault, b.value v → outputText escape v = .error fault → F fault
  apply : ∀ (f : Function) c args, (∀ a ∈ args, b.value a) →
    Run.Meets P (Run.within c (f.apply s.host s.engine.translator args)) b.value fun _ => True
  resolve : ∀ kind name, kind ≠ .page → b.name name →
    Run.Meets P (s.engine.resolve? kind name) (fun o => ∀ t, o = some t → b.Holds t) F

theorem Confines.spent {P : World → Prop} {b : Bounds} {F : Fault → Prop} {s : Stage}
    (confines : Confines P b F s) : Confines P b F s.spent := { confines with }

section
variable {P : World → Prop} {b : Bounds} {F : Fault → Prop} {s : Stage}
  (confines : Confines P b F s)
  (c : RenderContext)
include confines

theorem warnMeets (message : String) {F' : Fault → Prop} :
    Run.Meets P (warn c message) (fun _ => True) F' := by
  unfold warn
  split
  · exact fun w inv => ⟨confines.logs w _ inv, .ok trivial⟩
  · exact .pure trivial

theorem callMeets (code : Code) (what : String) (f : Function) {args : List Value}
    (given : ∀ a ∈ args, b.value a) :
    Run.Meets P (s.call c code what f args) b.value (Problem F) := by
  unfold call
  refine (confines.apply f c args given).attempt.bind fun answer result => ?_
  cases result with
  | ok held => exact .pure held
  | error _ => exact (warnMeets confines c _).bind fun _ _ => .throw (.inr ⟨_, _, rfl⟩)

variable {scope : Scope} (names : Scope.Each b.value scope)
include names

theorem argumentsMeet {tokens : List String}
    (readable : ∀ token ∈ tokens, ∀ scope fault, s.argument scope token = .error fault → F fault) :
    Run.Meets P (Run.ofExcept (tokens.mapM (s.argument scope))) (fun args => ∀ a ∈ args, b.value a)
      F := by
  refine .ofExcept (.of (fun args found => argumentsHold confines.closed.values names found) ?_)
  intro fault failed
  obtain ⟨token, member, found⟩ := errorMapM failed
  exact readable token member scope fault found

theorem applyFilterMeets {v : Value} (held : b.value v) (f : FilterCall)
    (readable : ∀ token ∈ f.args, ∀ scope fault, s.argument scope token = .error fault → F fault) :
    Run.Meets P (s.applyFilter c scope v f) b.value (Problem F) := by
  unfold applyFilter
  dsimp only
  split
  · exact .throw (.inr ⟨_, _, rfl⟩)
  · rename_i g _
    refine ((argumentsMeet confines names readable).imp (fun _ each => each)
      fun _ => .inl).bind fun args given => ?_
    refine callMeets confines c _ _ g fun a member => ?_
    rcases List.mem_cons.mp member with rfl | later
    · exact held
    · exact given a later

theorem applyFiltersMeet (filters : List FilterCall)
    (readable : ∀ token ∈ filters.flatMap FilterCall.args, ∀ scope fault,
      s.argument scope token = .error fault → F fault) {v : Value} (held : b.value v) :
    Run.Meets P (s.applyFilters c scope filters v) b.value (Problem F) := by
  unfold applyFilters
  induction filters generalizing v with
  | nil => exact .pure held
  | cons f filters ih =>
    rw [List.flatMap_cons] at readable
    rw [List.foldlM_cons]
    refine (applyFilterMeets confines c names held f fun token member =>
      readable token (List.mem_append_left _ member)).bind fun v next => ?_
    exact ih (fun token member => readable token (List.mem_append_right _ member)) next

theorem applyHelperMeets (name : String) (args : List String)
    (readable : ∀ token ∈ args, ∀ scope fault, s.argument scope token = .error fault → F fault) :
    Run.Meets P (s.applyHelper c scope name args) b.value (Problem F) := by
  unfold applyHelper
  dsimp only
  split
  · exact .throw (.inr ⟨_, _, rfl⟩)
  · rename_i f _
    exact ((argumentsMeet confines names readable).imp (fun _ each => each)
      fun _ => .inl).bind fun args given => callMeets confines c _ _ f given

omit names

theorem commentMeets (code : Code) (message : String) :
    Run.Meets P (s.comment c code message) (fun _ => True) F := by
  unfold comment
  split
  · exact confines.emit _
  · exact .pure trivial

theorem outputMeets {value : Run Value} (given : Run.Meets P value b.value (Problem F)) :
    Run.Meets P (s.output? c value) (fun o => ∀ v, o = some v → b.value v) F := by
  unfold output?
  refine given.attempt.bind fun answer result => ?_
  cases result with
  | ok held =>
    refine .pure fun v found => ?_
    cases found
    exact held
  | @error fault problem =>
    have without : Run.Meets P (pure none : Run (Option Value))
        (fun o => ∀ v, o = some v → b.value v) F := .pure fun v absent => by cases absent
    cases fault with
    | diagnostic code message =>
      exact (commentMeets confines c code message).bind fun _ _ => without
    | _ =>
      refine .throw (problem.resolve_right ?_)
      rintro ⟨_, _, same⟩
      cases same

theorem exceededMeets (kind : Kind) (name : String) :
    Run.Meets P (s.exceeded c kind name) (fun _ => True) F :=
  (warnMeets confines c _).bind fun _ _ => commentMeets confines c _ _

theorem missingMeets (kind : Kind) (name : String) :
    Run.Meets P (s.missing c kind name) (fun _ => True) F := commentMeets confines c _ _

end

variable {P : World → Prop} {b : Bounds} {F : Fault → Prop}

-- the measure is that of the renderer
mutual

theorem nodesMeet {s : Stage} (confines : Confines P b F s) (c : RenderContext) (level : Nat)
    {scope : Scope}
    (names : Scope.Each b.value scope) (ns : List (Node Value)) (inside : ∀ n ∈ ns, b.node n) :
    Run.Meets P (s.nodes c level scope ns) (fun _ => True) F := by
  cases ns with
  | nil =>
    rw [nodes]
    exact .pure trivial
  | cons n ns =>
    rw [nodes]
    refine (nodeMeets confines c level names n (inside n List.mem_cons_self)).bind fun _ _ => ?_
    exact nodesMeet confines c level names ns fun m member =>
      inside m (List.mem_cons_of_mem n member)
termination_by (s.room, c.remaining, level, sizeOf ns, 0)

theorem nodeMeets {s : Stage} (confines : Confines P b F s) (c : RenderContext) (level : Nat)
    {scope : Scope}
    (names : Scope.Each b.value scope) (n : Node Value) (here : b.node n) :
    Run.Meets P (s.node c level scope n) (fun _ => True) F := by
  have closed := confines.closed
  have inside := closed.children n here
  have readable := confines.token n here
  cases n with
  | text pos content =>
    rw [node]
    split
    · exact .pure trivial
    · exact confines.emit _
  | lookup pos path escape filters =>
    rw [node]
    exact writtenMeets confines c level escape
      (applyFiltersMeet confines c names filters readable (closed.values.resolve _ names path))
  | call pos name args escape filters =>
    rw [node]
    have first : ∀ token ∈ args, _ := fun token member =>
      readable token (List.mem_append_left _ member)
    have later : ∀ token ∈ filters.flatMap FilterCall.args, _ := fun token member =>
      readable token (List.mem_append_right _ member)
    exact writtenMeets confines c level escape
      ((applyHelperMeets confines c names name args first).bind fun v held =>
        applyFiltersMeet confines c names filters later held)
  | cond pos condition children =>
    rw [node]
    split
    · exact nodesMeet confines c level names children inside
    · exact .pure trivial
  | each pos target binder children =>
    rw [node]
    cases found : (s.resolve scope target).items? with
    | some items =>
      exact eachMeets confines c level names binder children inside items.length 0 items
        (closed.values.items _ items (closed.values.resolve _ names target) found)
    | none => exact .pure trivial
  | embed pos name props =>
    rw [node]
    by_cases h : c.depthExceeded = true
    · rw [dif_pos h]
      exact exceededMeets confines c .embed name
    · have deeper := RenderContext.remaining_child_lt (by simpa using h) name pos.line
      rw [dif_neg h]
      refine (confines.resolve .embed name nofun (closed.embed _ _ _ here)).bind fun o holds => ?_
      cases o with
      | none => exact missingMeets confines c .embed name
      | some t =>
        have read : Within (Layer.Each b.value) F (props.mapM fun (key, token) =>
            (s.argument scope token).map fun v => (key, v)) := by
          refine .of (fun layer found => entriesHold closed.values names found) ?_
          intro fault failed
          obtain ⟨e, member, found⟩ := errorMapM failed
          exact readable e.2 (List.mem_map_of_mem member) scope fault (errorMap found)
        refine (Run.Meets.ofExcept read).bind fun layer own => ?_
        exact nodesMeet confines _ level (Scope.eachCons own names) t.nodes (holds t rfl).nodes
  | component pos name props children =>
    rw [node]
    by_cases slot : name = Node.slotTag
    · rw [if_pos slot]
      exact nodesMeet confines c level names children inside
    · rw [if_neg slot]
      by_cases h : c.depthExceeded = true
      · rw [dif_pos h]
        exact exceededMeets confines c .component name
      · have deeper := RenderContext.remaining_child_lt (by simpa using h) name pos.line
        rw [dif_neg h]
        refine (confines.resolve .component name nofun
          (closed.component _ _ _ _ here slot)).bind fun o holds => ?_
        cases o with
        | none => exact missingMeets confines c .component name
        | some t =>
          have own : Layer.Each b.value (componentLayer level props children scope) :=
            componentLayerHolds closed.values closed.children
              (fun ns within => closed.content level ns scope within names)
              (closed.props _ here) inside
          exact nodesMeet confines _ (level + 1) (Scope.eachCons own names) t.nodes
            (holds t rfl).nodes
  | layout pos props children =>
    rw [node]
    exact layoutMeets confines c level names pos.line (closed.layout _ _ _ here)
      (closed.props _ here) children inside
  | diagnostic pos code message source =>
    rw [node]
    exact confines.emit _
termination_by (s.room, c.remaining, level, sizeOf n, 0)

theorem writtenMeets {s : Stage} (confines : Confines P b F s) (c : RenderContext) (level : Nat)
    (escape : Bool)
    {value : Run Value} (given : Run.Meets P value b.value (Problem F)) :
    Run.Meets P (s.written c level escape value) (fun _ => True) F := by
  rw [written]
  refine (outputMeets confines c given).bind fun o held => ?_
  cases o with
  | none => exact .pure trivial
  | some v =>
    have value := held v rfl
    cases v with
    | fragment inner ns scope =>
      dsimp only
      split
      · exact nodesMeet confines c inner (confines.closed.values.names value) ns
          (confines.closed.nodes _ _ _ value)
      · split
        · rename_i space
          have less := roomSpent space
          exact nodesMeet confines.spent c inner (confines.closed.values.names value) ns
            (confines.closed.nodes _ _ _ value)
        · exact .throw confines.deep
    | _ =>
      refine (Run.Meets.ofExcept (.of (fun _ _ => trivial)
        fun fault => confines.output escape _ fault value)).bind fun text _ => ?_
      split
      · exact .pure trivial
      · exact confines.emit _
termination_by (s.room, c.remaining, level, 0, 0)

theorem eachMeets {s : Stage} (confines : Confines P b F s) (c : RenderContext) (level : Nat)
    {scope : Scope}
    (names : Scope.Each b.value scope) (binder : String) (children : List (Node Value))
    (inside : ∀ n ∈ children, b.node n) (length index : Nat) (items : List Value)
    (held : ∀ v ∈ items, b.value v) :
    Run.Meets P (s.each c level scope binder children length index items) (fun _ => True) F := by
  cases items with
  | nil =>
    rw [each]
    exact .pure trivial
  | cons item items =>
    rw [each]
    have own := loopScopeHolds confines.closed.values names binder length index
      (held item List.mem_cons_self)
    refine (nodesMeet confines c level own children inside).bind fun _ _ => ?_
    exact eachMeets confines c level names binder children inside length (index + 1) items
      fun v member => held v (List.mem_cons_of_mem item member)
termination_by (s.room, c.remaining, level, sizeOf children, items.length + 1)

theorem layoutMeets {s : Stage} (confines : Confines P b F s) (c : RenderContext) (level : Nat)
    {scope : Scope}
    (names : Scope.Each b.value scope) (line : Int) {props : Layer}
    (known : b.name (Value.layoutName props)) (own : Layer.Each b.value props)
    (children : List (Node Value)) (inside : ∀ n ∈ children, b.node n) :
    Run.Meets P (s.layout c level scope line props children) (fun _ => True) F := by
  have closed := confines.closed
  have page : Scope.Each b.value (props :: scope) := Scope.eachCons own names
  rw [layout]
  dsimp only
  by_cases h : c.depthExceeded = true
  · rw [dif_pos h]
    exact (exceededMeets confines c .layout _).bind fun _ _ =>
      nodesMeet confines c level page children inside
  · have deeper := RenderContext.remaining_child_lt (by simpa using h) (Value.layoutName props) line
    rw [dif_neg h]
    refine (confines.resolve .layout _ nofun known).bind fun o holds => ?_
    cases o with
    | none =>
      exact (missingMeets confines c .layout _).bind fun _ _ =>
        nodesMeet confines c level page children inside
    | some t =>
      have held := holds t rfl
      have content : b.value (.fragment level children (props :: scope)) :=
        closed.content level children _ inside page
      have around : Layer.Each b.value
          [("content", .fragment level children (props :: scope)),
            ("$content", .fragment level children (props :: scope))] := by
        intro e member
        simp only [List.mem_cons, List.not_mem_nil, or_false] at member
        rcases member with rfl | rfl <;> exact content
      have seen := Scope.eachCons own (Scope.eachCons around names)
      have direct :=
        nodesMeet confines (c.child (Value.layoutName props) line) (level + 1) seen t.nodes
        held.nodes
      dsimp only
      cases parent : t.metadata.layout with
      | none => exact direct
      | some name =>
        dsimp only
        split
        · exact direct
        · have named : b.name (Value.layoutName (layoutProps t.metadata.frontmatter name)) := by
            rw [layoutNameProps]
            exact held.layout name parent
          exact layoutMeets confines _ (level + 1) seen line named
            (Layer.eachSetProp held.data _ (closed.values.text name)) t.nodes held.nodes
termination_by (s.room, c.remaining, level, sizeOf children, 1)

end

variable {s : Stage}

theorem pageConfined (confines : Confines P b F s) (page : Page)
    (refused : ∀ f, (s.sink.unusable? <|> page.refusal?) = some f → F f) {values : Layer}
    (o : RenderOptions) (globals : Layer.Each b.value s.engine.globals)
    (named : Layer.Each b.value values) (data : Layer.Each b.value page.data)
    (nodes : ∀ n ∈ page.body, b.node n)
    (layout : ∀ name, page.layout? o.layout = some name → b.name name) {w : World}
    (start : P { w with metadata := o.metadata }) :
    P ((s.page page values o).on w).2 ∧
      Within (fun _ => True) F ((s.page page values o).on w).1 := by
  have changed : (modify fun w => { w with metadata := o.metadata } : Run Unit).on w =
      (.ok (), { w with metadata := o.metadata }) := rfl
  have outer : Scope.Each b.value [[], values, s.engine.globals] :=
    Scope.eachCons (List.forall_mem_nil _)
      (Scope.eachCons named (Scope.eachCons globals (List.forall_mem_nil _)))
  unfold Stage.page
  rw [Run.onBindOk changed]
  cases given : s.sink.unusable? <|> page.refusal? with
  | some fault => exact ⟨start, .error (refused fault given)⟩
  | none =>
    dsimp only
    cases asked : page.layout? o.layout with
    | some name =>
      have known : b.name (Value.layoutName (layoutProps page.data name)) := by
        rw [layoutNameProps]
        exact layout name asked
      exact layoutMeets confines _ 0 outer _ known
        (Layer.eachSetProp data _ (confines.closed.values.text name)) page.body nodes _ start
    | none =>
      refine nodesMeet confines _ 0 ?_ page.body nodes _ start
      split
      · exact outer
      · exact Scope.eachCons data outer

theorem pageMeets (confines : Confines P b F s) (page : Page) (usable : s.sink.unusable? = none)
    (given : page.refusal? = none) {values : Layer} (o : RenderOptions)
    (globals : Layer.Each b.value s.engine.globals) (named : Layer.Each b.value values)
    (data : Layer.Each b.value page.data) (nodes : ∀ n ∈ page.body, b.node n)
    (layout : ∀ name, page.layout? o.layout = some name → b.name name) {w : World}
    (start : P { w with metadata := o.metadata }) :
    Within (fun _ => True) F ((s.page page values o).on w).1 := by
  refine (pageConfined confines page (fun f refused => ?_) o globals named data nodes layout start).2
  rw [usable, given] at refused
  cases refused

def evaluated (s : Stage) (c : RenderContext) (scope : Scope) : Node Value → Option (Run Value)
  | .lookup _ path _ filters =>
      some (s.applyFilters c scope filters (s.resolve scope path))
  | .call _ name args _ filters =>
      some (s.applyHelper c scope name args >>= s.applyFilters c scope filters)
  | _ => none

theorem evaluatedMeets (confines : Confines P b F s) (c : RenderContext) {scope : Scope}
    (names : Scope.Each b.value scope) {n : Node Value} (here : b.node n) {value : Run Value}
    (output : s.evaluated c scope n = some value) :
    Run.Meets P value b.value (Problem F) := by
  have readable := confines.token n here
  cases n with
  | lookup pos path escape filters =>
    cases output
    exact applyFiltersMeet confines c names filters readable
      (confines.closed.values.resolve _ names path)
  | call pos name args escape filters =>
    cases output
    have first : ∀ token ∈ args, _ := fun token member =>
      readable token (List.mem_append_left _ member)
    have later : ∀ token ∈ filters.flatMap FilterCall.args, _ := fun token member =>
      readable token (List.mem_append_right _ member)
    exact (applyHelperMeets confines c names name args first).bind fun v held =>
      applyFiltersMeet confines c names filters later held
  | _ => contradiction

theorem noted (plain : s.sink = .plain) (c : RenderContext) (code : Code) (message : String)
    (w : World) : (s.comment c code message).on w = (.ok (), w.noting c.debug code message) := by
  unfold comment World.noting
  rw [plain]
  cases c.debug <;> rfl

/- An output with a problem is left out, or a comment where diagnostics are wanted, and what comes
after it is rendered. -/
theorem problemConfined (plain : s.sink = .plain) {c : RenderContext} {scope : Scope}
    {n : Node Value} {value : Run Value} (output : s.evaluated c scope n = some value)
    {w w' : World} {code : Code} {message : String}
    (failed : value.on w = (.error (.diagnostic code message), w')) (level : Nat)
    (ns : List (Node Value)) :
    (s.nodes c level scope (n :: ns)).on w =
      (s.nodes c level scope ns).on (w'.noting c.debug code message) := by
  have tried : (Run.attempt value).on w = (.ok (.error (.diagnostic code message)), w') := by
    have same : (Run.attempt value).on w = (.ok (value.on w).1, (value.on w).2) := rfl
    rw [same, failed]
  have left : (s.output? c value).on w = (.ok none, w'.noting c.debug code message) := by
    unfold output?
    rw [Run.onBindOk tried]
    exact Run.onBindOk (noted plain c code message w')
  rw [nodes]
  refine Run.onBindOk (a := ()) ?_
  cases n with
  | lookup pos path escape filters =>
    cases output
    rw [node, written]
    exact Run.onBindOk left
  | call pos name args escape filters =>
    cases output
    rw [node, written]
    exact Run.onBindOk left
  | _ => contradiction

end Stage
end Medley
