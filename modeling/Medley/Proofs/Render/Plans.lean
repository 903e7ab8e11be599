import Medley.Proofs.Render.Machine

/-! Plans obey. The node lists that a node stands for obey the policy that the node, its scope and
the templates obey; each of them can nest fewer templates, was written under fewer of them, or is
smaller than the list it is part of. -/
namespace Medley

/-- A context of a render of this stage: as deep as its chain is long, and no deeper than the
limit allows. -/
structure RenderContext.Within (s : Stage) (c : RenderContext) : Prop where
  debug : c.debug = s.engine.debug
  limit : c.maxDepth = s.engine.maxDepth
  chain : c.depth = c.stack.length
  bound : c.depth ≤ max 0 c.maxDepth

theorem RenderContext.Within.childWithin {s : Stage} {c : RenderContext} (h : c.Within s)
    (shallow : ¬ c.depthExceeded = true) (name : String) (line : Int) :
    (c.child name line).Within s := by
  simp only [RenderContext.depthExceeded, decide_eq_true_eq] at shallow
  refine ⟨h.debug, h.limit, ?_, ?_⟩
  · have same := h.chain
    simp only [RenderContext.child, List.length_append, List.length_cons, List.length_nil]
    omega
  · simp only [RenderContext.child]
    omega

namespace Task

structure Obeys (p : Policy) (s : Stage) (t : Task) : Prop where
  context : t.context.Within s
  names : Scope.Obeys p t.level t.scope
  nodes : ∀ n ∈ t.nodes, n.Every p.node

/- How many templates can still be nested, then how many are around, then how many nodes there are.
-/
noncomputable def rank (t : Task) : Nat × Nat × Nat :=
  (t.context.remaining, t.level, sizeOf t.nodes)

def Below (a b : Task) : Prop :=
  Prod.Lex (· < ·) (Prod.Lex (· < ·) (· < ·)) a.rank b.rank

theorem belowWellFounded : WellFounded Below :=
  InvImage.wf rank (Prod.lex Nat.lt_wfRel (Prod.lex Nat.lt_wfRel Nat.lt_wfRel)).wf

theorem belowDeeper {a b : Task} (h : a.context.remaining < b.context.remaining) : a.Below b :=
  .left _ _ h

theorem belowChild {c : RenderContext} (shallow : ¬ c.depthExceeded = true) (name : String)
    (line : Int) {level level' : Nat} {scope scope' : Scope} {ns ns' : List (Node Value)} :
    Below ⟨c.child name line, level, scope, ns⟩ ⟨c, level', scope', ns'⟩ :=
  belowDeeper (RenderContext.remaining_child_lt (by simpa using shallow) name line)

theorem belowInner {a b : Task} (same : a.context = b.context) (h : a.level < b.level) :
    a.Below b := by
  unfold Below rank
  rw [same]
  exact .right _ (.left _ _ h)

theorem belowInside {a b : Task} (same : a.context = b.context) (same' : a.level = b.level)
    (h : sizeOf a.nodes < sizeOf b.nodes) : a.Below b := by
  unfold Below rank
  rw [same, same']
  exact .right _ (.right _ h)

theorem belowRest {c : RenderContext} {level : Nat} {scope : Scope} (n : Node Value)
    {ns : List (Node Value)} : Below ⟨c, level, scope, ns⟩ ⟨c, level, scope, n :: ns⟩ := by
  refine belowInside rfl rfl ?_
  simp only [List.cons.sizeOf_spec]
  omega

theorem belowChildren {c : RenderContext} {level : Nat} (scope scope' : Scope) (n : Node Value)
    (ns : List (Node Value)) : Below ⟨c, level, scope', n.children⟩ ⟨c, level, scope, n :: ns⟩ := by
  have size := n.childrenSize
  refine belowInside rfl rfl ?_
  simp only [List.cons.sizeOf_spec]
  omega

theorem Obeys.afterFirst {p : Policy} {s : Stage} {c : RenderContext} {level : Nat} {scope : Scope}
    {n : Node Value} {ns : List (Node Value)} (h : Obeys p s ⟨c, level, scope, n :: ns⟩) :
    Obeys p s ⟨c, level, scope, ns⟩ :=
  ⟨h.context, h.names, fun m member => h.nodes m (List.mem_cons_of_mem n member)⟩

end Task

namespace Stage
variable {p : Policy} {s : Stage} {level : Nat} {scope : Scope}

theorem scopeMono {m : Nat} (names : Scope.Obeys p level scope) (le : level ≤ m) :
    Scope.Obeys p m scope := fun layer member e here => (names layer member e here).mono le

theorem plainLayer {layer : Layer} (h : Layer.Plain layer) : Layer.Obeys p level layer :=
  fun e member => (h e member).obeys p level

theorem contentObeys {children : List (Node Value)} (inside : ∀ n ∈ children, n.Every p.node)
    (names : Scope.Obeys p level scope) :
    (Value.fragment level children scope).Obeys p (level + 1) :=
  .fragment (Nat.lt_succ_self level) inside names

theorem componentLayerObeys {props : Layer} (plain : Layer.Plain props)
    {children : List (Node Value)} (inside : ∀ n ∈ children, n.Every p.node)
    (names : Scope.Obeys p level scope) :
    Layer.Obeys p (level + 1) (componentLayer level props children scope) :=
  componentLayerHolds (Value.obeysClosed p (level + 1)) (fun _ every => every.inside)
    (fun _ inside => contentObeys inside names) (plainLayer plain) inside

theorem entriesKeep (names : Scope.Obeys p level scope) (entries : List (String × String)) :
    Run.Keeps (World.Obeys p) (Run.ofExcept (entries.mapM fun e =>
      (s.argument scope e.2).map fun v => (e.1, v))) (Layer.Obeys p level) :=
  .ofExcept fun _ read => entriesHold (Value.obeysClosed p level) names read

def After (p : Policy) (s : Stage) (t : Task) (ts : List Task) : Prop :=
  ∀ t' ∈ ts, t'.Obeys p s ∧ t'.Below t

theorem afterNothing {t : Task} : After p s t [] := List.forall_mem_nil _

theorem afterOne {t t' : Task} (h : t'.Obeys p s) (below : t'.Below t) : After p s t [t'] := by
  intro u member
  rw [List.mem_singleton.mp member]
  exact ⟨h, below⟩

theorem placeKeeps (obeys : s.Obeys p) {t : Task} (h : t.Obeys p s) {escape : Bool}
    (shows : p.Shows escape) {value : Run Value}
    (given : Run.Keeps (World.Obeys p) value fun v => v.Obeys p t.level) :
    Run.Keeps (World.Obeys p) (s.place t.context escape value) (After p s t) := by
  unfold place
  refine (outputKeeps obeys t.context h.context.debug given).bind fun found result => ?_
  split
  · rename_i inner content names
    obtain ⟨below, nodes, names'⟩ := (result _ rfl).content
    exact .pure (afterOne ⟨h.context, names', nodes⟩ (Task.belowInner rfl below))
  · rename_i v other
    refine (Run.Keeps.ofExcept fun _ shown => shown).bind fun text shown => ?_
    split
    · exact .pure afterNothing
    · rename_i nonempty
      have allowed := shows t.level v (result v rfl)
        (fun inner ns scope same => other inner ns scope (by rw [same])) text shown
        (by simpa using nonempty)
      exact (Run.emitKeeps _ allowed).bind fun _ _ => .pure afterNothing
  · exact .pure afterNothing

theorem layoutTaskAfter (obeys : s.Obeys p) {c : RenderContext} {pos : Position} {props : Layer}
    {children ns : List (Node Value)}
    (h : (Task.mk c level scope (.layout pos props children :: ns)).Obeys p s)
    (shallow : ¬ c.depthExceeded = true) {t : Template} (good : t.Every p.node) :
    After p s ⟨c, level, scope, .layout pos props children :: ns⟩
      [layoutTask c level scope pos.line props children t] := by
  have before : Scope.Obeys p level scope := h.names
  have every := h.nodes _ List.mem_cons_self
  have inside : ∀ n ∈ children, n.Every p.node := every.inside
  have plain : Layer.Plain props := p.props _ every.here
  have content := contentObeys inside (Scope.eachCons (plainLayer plain) before)
  have own : Layer.Obeys p (level + 1)
      [("content", .fragment level children (props :: scope)),
        ("$content", .fragment level children (props :: scope))] := by
    intro e member
    simp only [List.mem_cons, List.not_mem_nil, or_false] at member
    rcases member with rfl | rfl <;> exact content
  have names := Scope.eachCons (plainLayer plain)
    (Scope.eachCons own (scopeMono before (Nat.le_succ level)))
  have outer : c.Within s := h.context
  have context := outer.childWithin shallow (Value.layoutName props) pos.line
  have deeper :=
    RenderContext.remaining_child_lt (by simpa using shallow) (Value.layoutName props) pos.line
  have direct : After p s ⟨c, level, scope, .layout pos props children :: ns⟩
      [⟨c.child (Value.layoutName props) pos.line, level + 1, _, t.nodes⟩] :=
    afterOne ⟨context, names, good.nodes⟩ (Task.belowDeeper deeper)
  -- a layout in a layout becomes a node, which is rendered at the same depth
  unfold layoutTask
  dsimp only
  split
  · rename_i parent found
    split
    · exact direct
    · refine afterOne ⟨context, names, fun n member => ?_⟩ (Task.belowDeeper deeper)
      rw [List.mem_singleton.mp member]
      exact .intro (obeys.fits.layout _ _ _ (setPropPlain good.data _ (.scalar rfl))) good.nodes
  · exact direct

theorem referKeeps (obeys : s.Obeys p) {c : RenderContext} (debug : c.debug = s.engine.debug)
    {kind : Kind} {name : String} {alone : List Task} {inside : Template → Run (List Task)}
    {Q : List Task → Prop} (without : Q alone)
    (each : ¬ c.depthExceeded = true → ∀ t : Template, t.Every p.node →
      Run.Keeps (World.Obeys p) (inside t) Q) :
    Run.Keeps (World.Obeys p) (s.refer c kind name alone inside) Q := by
  unfold refer
  split
  · exact (exceededKeeps obeys c debug kind name).bind fun _ _ => .pure without
  · rename_i shallow
    refine (resolveKeeps obeys kind name).bind fun found good => ?_
    split
    · rename_i t
      exact each shallow t (good t rfl)
    · exact (missingKeeps obeys c debug kind name).bind fun _ _ => .pure without

theorem planKeeps (obeys : s.Obeys p) {c : RenderContext} {n : Node Value} {ns : List (Node Value)}
    (h : (Task.mk c level scope (n :: ns)).Obeys p s) :
    Run.Keeps (World.Obeys p) (s.plan c level scope n) (After p s ⟨c, level, scope, n :: ns⟩) := by
  have context : c.Within s := h.context
  have names : Scope.Obeys p level scope := h.names
  have every := h.nodes n List.mem_cons_self
  cases n with
  | text pos content =>
    rw [plan]
    split
    · exact .pure afterNothing
    · rename_i nonempty
      have allowed := obeys.fits.literal pos content every.here (by simpa using nonempty)
      exact (Run.emitKeeps _ allowed).bind fun _ _ => .pure afterNothing
  | lookup pos path escape filters =>
    rw [plan]
    exact placeKeeps obeys h (obeys.fits.lookup _ _ _ _ every.here)
      (applyFiltersKeep obeys c names filters (Value.resolveObeys _ names path))
  | call pos name args escape filters =>
    rw [plan]
    exact placeKeeps obeys h (obeys.fits.call _ _ _ _ _ every.here)
      ((applyHelperKeeps obeys c names name args).bind fun v given =>
        applyFiltersKeep obeys c names filters given)
  | cond pos condition children =>
    rw [plan]
    refine .pure ?_
    split
    · exact afterOne ⟨context, names, every.inside⟩
        (Task.belowChildren scope scope (.cond pos condition children) ns)
    · exact afterNothing
  | each pos target binder children =>
    rw [plan]
    refine .pure ?_
    split
    · rename_i items found
      intro t member
      obtain ⟨i, bound, rfl⟩ := List.mem_mapIdx.mp member
      have item := (Value.resolveObeys _ names target).items found _ (List.getElem_mem bound)
      have own := loopScopeHolds (Value.obeysClosed p level) names binder items.length i item
      exact ⟨⟨context, own, every.inside⟩,
        Task.belowChildren scope _ (.each pos target binder children) ns⟩
    · exact afterNothing
  | embed pos name props =>
    rw [plan]
    refine referKeeps obeys context.debug afterNothing fun shallow t good => ?_
    refine (entriesKeep names props).bind fun layer own => .pure ?_
    exact afterOne ⟨context.childWithin shallow name pos.line, Scope.eachCons own names, good.nodes⟩
      (Task.belowChild shallow name pos.line)
  | component pos name props children =>
    rw [plan]
    split
    · exact .pure (afterOne ⟨context, names, every.inside⟩
        (Task.belowChildren scope scope (.component pos name props children) ns))
    · refine referKeeps obeys context.debug afterNothing fun shallow t good => .pure ?_
      have own := componentLayerObeys (p.props _ every.here) every.inside names
      have within := Scope.eachCons own (scopeMono names (Nat.le_succ level))
      exact afterOne ⟨context.childWithin shallow name pos.line, within, good.nodes⟩
        (Task.belowChild shallow name pos.line)
  | layout pos props children =>
    have plain := p.props _ every.here
    have page : Scope.Obeys p level (props :: scope) := Scope.eachCons (plainLayer plain) names
    rw [plan]
    refine referKeeps obeys context.debug ?_ fun shallow t good =>
      .pure (layoutTaskAfter obeys h shallow good)
    exact afterOne ⟨context, page, every.inside⟩
      (Task.belowChildren scope (props :: scope) (.layout pos props children) ns)
  | diagnostic pos code message source =>
    rw [plan]
    exact (Run.emitKeeps _ (obeys.fits.diagnostic _ _ _ _ every.here)).bind fun _ _ =>
      .pure afterNothing

end Stage
end Medley
