import Medley.Proofs.Engine.Refusals
import Medley.Proofs.Render.Faults
import Medley.Proofs.Render.Output
import Medley.Proofs.Render.Safety
import Medley.Proofs.Session.Dependencies
import Medley.Proofs.Template.RoundTrip

/-! Problems stay where they arise. Over templates in memory a render gives text, whatever its tags
hold and however its functions fail; what is left are integers that are too long: those that cannot
be read, as an argument or as data of a page, and those that cannot be written, and content that
functions put into itself without end. -/
namespace Medley

def Fault.OfLength (f : Fault) : Prop := f.IsOverlong ∨ f = .unwritableInteger

/- What a render over templates in memory can fail by. -/
def Fault.Escapes (f : Fault) : Prop := f.OfLength ∨ f = .tooDeep

theorem Stage.outputFault {escape : Bool} {v : Value} {f : Fault}
    (h : outputText escape v = .error f) : f = .unwritableInteger := by
  unfold outputText at h
  split at h
  · contradiction
  · have written := errorMap h
    unfold Value.output at written
    split at written
    · contradiction
    · cases written
      rfl

namespace Engine
variable {e : Engine} {shelves : Shelves}

theorem resolvedOverlong (memory : e.loader = .memory shelves) {c : Cache} {kind : Kind}
    {name : String} {f : Fault} (h : e.resolved c kind name = .error f) :
    f.IsOverlong ∧ e.fetch kind name = .error f := by
  obtain ⟨failed, other⟩ := resolvedFault h
  have read : e.fetch kind name = .error f := by
    refine (loadedFault failed).resolve_left fun refused => ?_
    have unkeyed := (cacheKeyFault refused).2
    rw [memory] at unkeyed
    cases unkeyed
  refine ⟨(fetchFault (memory ▸ trivial) read).resolve_left fun loading => ?_, read⟩
  rw [loading.ofTemplate] at other
  cases other

theorem afterLoadMember {c : Cache} {kind : Kind} {name : String} {d : CacheKey × Template}
    (member : d ∈ (e.afterLoad c kind name).entries) :
    d ∈ c.entries ∨ e.fetch kind name = .ok d.2 := by
  unfold afterLoad at member
  split at member
  · split at member
    · exact .inl member
    · split at member
      · rename_i t read
        rcases Stage.putMember member with old | same
        · exact .inl old
        · exact .inr (same ▸ read)
      · exact .inl member
  · exact .inl member

section
variable {b : Bounds} (registered : ∀ kind, ∀ d ∈ e.registered.ofKind kind, b.Holds d.2)
  (fetched : ∀ kind name t, e.fetch kind name = .ok t → b.Holds t) {c : Cache}
  (cached : ∀ d ∈ c.entries, b.Holds d.2)
include fetched cached

theorem afterResolveHolds (kind : Kind) (name : String) :
    ∀ d ∈ (e.afterResolve c kind name).entries, b.Holds d.2 := by
  intro d member
  unfold afterResolve at member
  split at member
  · exact cached d member
  · exact (afterLoadMember member).elim (cached d) (fetched kind name d.2)

include registered in
theorem resolvedHolds {kind : Kind} {name : String} {t : Template}
    (found : e.resolved c kind name = .ok (some t)) : b.Holds t := by
  rcases resolvedFrom found with given | ⟨key, remembered⟩ | read
  · exact registered kind _ given
  · exact cached _ remembered
  · exact fetched kind name t read

end

end Engine

structure World.Within (b : Bounds) (w : World) : Prop where
  cached : ∀ e ∈ w.cache.entries, b.Holds e.2
  metadata : Layer.Each b.value w.metadata

namespace Stage
variable {e : Engine} {h : Host} {shelves : Shelves} {b : Bounds} {F : Fault → Prop}

theorem applyMeets (closed : b.Closed) (keeps : h.Keeps b.value) {C : Cache → Prop}
    {P : World → Prop} (same : ∀ w, P w ↔ C w.cache ∧ Layer.Each b.value w.metadata)
    (f : Function) (c : RenderContext) {args : List Value} (given : ∀ a ∈ args, b.value a) :
    Run.Meets P (Run.within c (f.apply h e.translator args)) b.value fun _ => True := by
  have applied : Run.Keeps (fun w => w.At c ∧ P w) (f.apply h e.translator args) b.value := by
    refine Function.applyKept closed.values closed.escaped (fun w l ⟨active, inv⟩ =>
      ⟨active, (same _).mpr ((same w).mp inv)⟩) (fun name args given w ⟨active, inv⟩ => ?_) _ f given
    obtain ⟨caches, metadata⟩ := (same w).mp inv
    obtain ⟨results, after⟩ := keeps name args (some c) _ w.objects given metadata
    rw [Host.onApply h active]
    exact ⟨⟨active, (same _).mpr ⟨caches, after⟩⟩, results⟩
  have around : ∀ w k, P w → P { w with contexts := k } := fun w k inv =>
    (same _).mpr ((same w).mp inv)
  have kept : Run.Keeps P (Run.within c (f.apply h e.translator args)) b.value :=
    .within (fun w inv => ⟨w.atEnter c, around w _ inv⟩) (fun w inside => around w _ inside.2) applied
  exact fun w inv => ⟨(kept w inv).1, .of (kept w inv).2 fun _ _ => trivial⟩

theorem applyWithin (closed : b.Closed) (keeps : h.Keeps b.value) (f : Function)
    (c : RenderContext) {args : List Value} (given : ∀ a ∈ args, b.value a) :
    Run.Meets (World.Within b) (Run.within c (f.apply h e.translator args)) b.value fun _ => True :=
  applyMeets closed keeps (C := fun c => ∀ e ∈ c.entries, b.Holds e.2)
    (fun _ => ⟨fun within => ⟨within.cached, within.metadata⟩, fun both => ⟨both.1, both.2⟩⟩)
    f c given

theorem resolveWithin (registered : ∀ kind, ∀ d ∈ e.registered.ofKind kind, b.Holds d.2)
    (fetched : ∀ kind name t, e.fetch kind name = .ok t → b.Holds t)
    (refused : ∀ c kind name f, e.resolved c kind name = .error f → F f) (kind : Kind)
    (name : String) :
    Run.Meets (World.Within b) (e.resolve? kind name) (fun o => ∀ t, o = some t → b.Holds t) F := by
  intro w within
  obtain ⟨logs, run⟩ := e.onResolve kind name w
  rw [run]
  refine ⟨⟨Engine.afterResolveHolds fetched within.cached kind name, within.metadata⟩,
    .of (fun o found t given => ?_) fun f failed => refused _ kind name f failed⟩
  subst given
  exact Engine.resolvedHolds registered fetched within.cached found

/- Whatever a render comes across, it fails by what escapes any render and by what loading fails by.
-/
theorem confinesEvery (escapes : ∀ f, f.Escapes → F f)
    (refused : ∀ c kind name f, e.resolved c kind name = .error f → F f) (h : Host) :
    Confines (World.Within .all) .all F (.of e h .plain) := by
  have any : ∀ t, Bounds.all.Holds t := fun t =>
    ⟨fun _ _ => trivial, fun _ _ => trivial, fun _ _ => trivial⟩
  exact {
    closed := Bounds.allClosed
    deep := escapes _ (.inr rfl)
    logs := fun _ _ within => ⟨within.cached, within.metadata⟩
    emit := fun _ _ within => ⟨⟨within.cached, within.metadata⟩, .ok trivial⟩
    token := fun _ _ _ _ _ _ failed => escapes _ (.inl (.inl (argumentFault failed).1))
    output := fun _ _ _ _ failed => escapes _ (.inl (.inr (outputFault failed)))
    apply := fun f c _ given => applyWithin Bounds.allClosed
      (fun _ _ _ _ _ _ _ => ⟨fun _ _ => trivial, fun _ _ => trivial⟩) f c given
    resolve := fun kind name _ _ => resolveWithin (fun _ d _ => any d.2) (fun _ _ t _ => any t)
      refused kind name }

theorem confinesAny (memory : e.loader = .memory shelves) (h : Host) :
    Confines (World.Within .all) .all Fault.Escapes (.of e h .plain) :=
  confinesEvery (fun _ escapes => escapes)
    (fun _ _ _ _ failed => .inl (.inl (Engine.resolvedOverlong memory failed).1)) h

end Stage

namespace Node

def Brief (n : Node Value) : Prop := ∀ token ∈ n.tokens, Stage.Short token

end Node

namespace Session
variable {s : Session} {shelves : Shelves}

/- The arguments of the templates that a render can come across can be read, and so can the page
data of those that are loaded. -/
structure Readable (s : Session) (t : Template) : Prop where
  page : t.IsRead
  templates : s.OnlyRead
  arguments : ∀ ns, s.Uses (.template t) ns → ∀ n : Node Value, n.Among ns →
    ∀ token ∈ n.tokens, Stage.Short token
  data : ∀ kind name f, s.engine.fetch kind name = .error f → ¬ f.IsOverlong

theorem Readable.holds {t u : Template} (readable : s.Readable t) (read : u.IsRead)
    (used : s.Uses (.template t) u.nodes) :
    (Bounds.content Node.Brief fun _ => True).Holds u := by
  obtain ⟨debug, issues, made⟩ := read
  have lists : u.Lists debug fun _ => True := made.lists fun _ _ => trivial
  refine ⟨fun n member => ?_, lists.data.holds, fun _ _ => trivial⟩
  have every : n.Every fun m => Layer.Plain m.props ∧ m.Brief := Node.amongEvery
    (fun m among => ⟨(Node.everyAmong lists.nodes among).1.props,
      readable.arguments _ used m among⟩) member
  exact every.holds (fun _ h => h.1) fun _ h => h.2

theorem Readable.confines {t : Template} (readable : s.Readable t)
    (memory : s.engine.loader = .memory shelves) (keeps : s.host.Keeps (Value.Holds Node.Brief)) :
    Stage.Confines (World.Within (.content Node.Brief fun _ => True))
      (.content Node.Brief fun _ => True) (fun f => f = .unwritableInteger ∨ f = .tooDeep)
      (s.stage .plain) := by
  have closed := Bounds.contentClosed fun n (_ : n.Brief) => n.refersAnywhere
  exact {
    closed := closed
    deep := .inr rfl
    logs := fun _ _ within => ⟨within.cached, within.metadata⟩
    emit := fun _ _ within => ⟨⟨within.cached, within.metadata⟩, .ok trivial⟩
    token := fun n brief token member _ _ failed =>
      absurd (brief.here token member) (Stage.argumentFault failed).2
    output := fun _ _ _ _ failed => .inl (Stage.outputFault failed)
    apply := fun f c _ given => Stage.applyWithin closed keeps f c given
    resolve := fun kind name _ _ => Stage.resolveWithin
      (fun kind d member => readable.holds (readable.templates.registered kind d member)
        (.registered member))
      (fun kind name t found => readable.holds ⟨_, Engine.fetchRead found⟩ (.loaded found))
      (fun _ kind name f failed => by
        obtain ⟨long, read⟩ := Engine.resolvedOverlong memory failed
        exact absurd long (readable.data kind name f read)) kind name }

theorem outputWithin {F : Fault → Prop} {a : Answer Unit} (h : Within (fun _ => True) F a.result) :
    (∃ text, a.output = .ok text) ∨ ∃ f, F f ∧ a.output = .error f := by
  unfold Answer.output
  cases result : a.result with
  | ok u => exact .inl ⟨_, rfl⟩
  | error f =>
    rw [result] at h
    cases h with
    | error held => exact .inr ⟨f, held, rfl⟩

theorem anyEach (scope : Scope) : Scope.Each Bounds.all.value scope :=
  fun _ _ _ _ => trivial

/-- Over templates in memory a render gives text, but for integers that are too long and for content
without end: where the arguments and the page data can be read, only an integer that is put out and
cannot be written is left of the first. A node is done with before those after it are rendered,
whatever went wrong with it; an output with a problem is left out, or a comment where diagnostics
are wanted. -/
theorem problemsConfined (memory : s.engine.loader = .memory shelves) :
    (∀ page values o, page.refusal? = none →
      (∃ text, (s.render page values o .plain).1.output = .ok text) ∨
        ∃ f, f.Escapes ∧ (s.render page values o .plain).1.output = .error f) ∧
    (∀ t values o, s.Readable t → s.Supplies Node.Brief values o →
      (∃ text, (s.render (.template t) values o .plain).1.output = .ok text) ∨
        ∃ f, (f = .unwritableInteger ∨ f = .tooDeep) ∧
          (s.render (.template t) values o .plain).1.output = .error f) ∧
    ∀ c level scope n ns w,
      let stage : Stage := (s.stage .plain)
      ((∃ w', (stage.node c level scope n).on w = (.ok (), w') ∧
          (stage.nodes c level scope (n :: ns)).on w = (stage.nodes c level scope ns).on w') ∨
        ∃ f, f.Escapes ∧ ((stage.node c level scope n).on w).1 = .error f) ∧
      ∀ value, stage.evaluated c scope n = some value →
        ∀ fault w', value.on w = (.error fault, w') → fault.Escapes ∨
          ∃ code message, fault = .diagnostic code message ∧
            (stage.nodes c level scope (n :: ns)).on w =
              (stage.nodes c level scope ns).on (w'.noting c.debug code message) := by
  have anything : Stage.Confines (World.Within .all) .all Fault.Escapes (s.stage .plain) :=
    Stage.confinesAny memory s.host
  have any : ∀ w : World, w.Within .all := fun w =>
    ⟨fun _ _ => ⟨fun _ _ => trivial, fun _ _ => trivial, fun _ _ => trivial⟩, fun _ _ => trivial⟩
  refine ⟨fun page values o given => ?_, fun t values o readable outside => ?_,
    fun c level scope n ns w => ⟨?_, fun value output fault w' failed => ?_⟩⟩
  · exact outputWithin (Stage.pageMeets anything page rfl given o (fun _ _ => trivial)
      (fun _ _ => trivial) (fun _ _ => trivial) (fun _ _ => trivial) (fun _ _ => trivial) (any _))
  · have holds := readable.holds readable.page .page
    have world : World.Within (.content Node.Brief fun _ => True)
        { cache := s.cache, objects := s.objects, metadata := o.metadata } :=
      ⟨fun e member => readable.holds (readable.templates.cached e member) (.remembered member),
        outside.metadata⟩
    have ends := Stage.pageMeets (w := { cache := s.cache, objects := s.objects })
      (readable.confines memory outside.host) (.template t) rfl rfl o outside.globals
      outside.values holds.data holds.nodes (fun _ _ => trivial) world
    exact outputWithin ends
  · obtain ⟨_, result⟩ := Stage.nodeMeets anything c level (anyEach scope) n trivial w (any w)
    cases run : (Stage.node (s.stage .plain) c level scope n).on w with
    | mk answer w' =>
      rw [run] at result
      cases result with
      | ok _ =>
        refine .inl ⟨w', rfl, ?_⟩
        rw [Stage.nodes]
        exact Run.onBindOk run
      | error length => exact .inr ⟨_, length, rfl⟩
  · obtain ⟨_, result⟩ := Stage.evaluatedMeets anything c (anyEach scope) trivial output w (any w)
    rw [failed] at result
    cases result with
    | error problem =>
      refine problem.imp id fun ⟨code, message, same⟩ => ⟨code, message, same, ?_⟩
      exact Stage.problemConfined rfl output (same ▸ failed) level ns

def troubledNodes : List (Node Value) :=
  [.text ⟨1, 0⟩ "a", .call ⟨1, 1⟩ "boom" ["12"] true [], .text ⟨1, 14⟩ "b"]

def troubledPage : Template := ⟨troubledNodes, .of troubledNodes [] none, none, none⟩

def troubled : Session where
  engine := { loader := .memory {}, helpers := [("boom", .host "boom")] }
  host := { Stage.echoHost with
    call := fun _ _ _ entries _ => (.error (.host "ValueError" "no"), entries) }

theorem troubledReadable : troubled.Readable troubledPage where
  page := ⟨false, [], {}, "a\x7b\x7b boom 12 \x7d\x7db", rfl, by cbv⟩
  templates := by
    refine ⟨fun kind e member => ?_, List.forall_mem_nil _⟩
    cases kind <;> cases member
  arguments ns used n among token member := by
    have short : Stage.Short "12" := by
      intro digits
      have read : Decimal.readInt "12".toList = .ok 12 := by decide
      rw [read]
      intro same
      cases same
    cases used with
    | page =>
      have flat : ∀ m ∈ troubledNodes, m.children = [] := by decide
      cases among with
      | here member' =>
        simp only [troubledPage, Page.body, troubledNodes, List.mem_cons, List.not_mem_nil,
          or_false] at member'
        rcases member' with rfl | rfl | rfl
        · cases member
        · rw [List.mem_singleton.mp member]
          exact short
        · cases member
      | inside member' deeper =>
        rw [flat _ member'] at deeper
        cases deeper with
        | here none => cases none
        | inside none => cases none
    | @registered kind e given => cases kind <;> cases given
    | remembered given => cases given
    | @loaded kind name t found => cases kind <;> cases found
  data kind name f failed := by
    cases kind <;> cases failed <;> rintro ⟨_, _, same⟩ <;> cases same

theorem troubledConfined : troubled.engine.loader = .memory {} ∧
    ((∃ text, (troubled.render (.template troubledPage) [] {} .plain).1.output = .ok text) ∨
      ∃ f, (f = .unwritableInteger ∨ f = .tooDeep) ∧
        (troubled.render (.template troubledPage) [] {} .plain).1.output = .error f) := by
  have outside : troubled.Supplies Node.Brief [] {} := by
    refine ⟨fun _ _ _ _ _ _ held => ⟨fun _ nothing => ?_, held⟩, List.forall_mem_nil _,
      List.forall_mem_nil _, List.forall_mem_nil _⟩
    cases nothing
  exact ⟨rfl, (problemsConfined rfl).2.1 troubledPage [] {} troubledReadable outside⟩

def ones (n : Nat) : String := String.ofList (List.replicate n '1')

theorem readOnes {n : Nat} (long : Decimal.digitLimit < n) :
    Decimal.readInt (List.replicate n '1') = .error (.tooLong n) := by
  have digits : ∀ n after, Decimal.readDigits after (List.replicate n '1') =
      (List.replicate n 1, []) := by
    intro n
    induction n with
    | zero => exact fun _ => rfl
    | succ n ih =>
      intro after
      rw [List.replicate_succ, Decimal.readDigits, ih]
      · rfl
      · exact fun _ _ same => absurd same (by decide)
  obtain ⟨m, rfl⟩ : ∃ m, n = m + 1 := ⟨n - 1, by omega⟩
  have whole : Text.trimChars Decimal.isNumberBlank (List.replicate (m + 1) '1') =
      List.replicate (m + 1) '1' := Text.trimCharsNone fun c member => by
    rw [List.eq_of_mem_replicate member]
    decide
  have unsigned : Decimal.readSign (List.replicate (m + 1) '1') =
      (false, List.replicate (m + 1) '1') := rfl
  unfold Decimal.readInt
  rw [whole, unsigned]
  dsimp only
  rw [digits]
  simp [List.replicate_succ, long]

theorem onesInteger {n : Nat} (more : n ≠ 0) : Token.isInteger (ones n).toList = true := by
  obtain ⟨m, rfl⟩ := Nat.exists_eq_succ_of_ne_zero more
  have unsigned : Token.dropSign (ones (m + 1)).toList = List.replicate (m + 1) '1' := by
    rw [ones, String.toList_ofList]
    rfl
  unfold Token.isInteger Token.isDigits
  rw [unsigned]
  have digit : Text.isDigit '1' = true := by decide
  simp [List.replicate_succ, digit]

theorem onesArgument {n : Nat} (long : Decimal.digitLimit < n) (stage : Stage) (scope : Scope) :
    stage.argument scope (ones n) = .error (.longInteger n) := by
  have more : n ≠ 0 := by omega
  have bare : Token.inside? (ones n).toList = none := by
    rw [ones, String.toList_ofList]
    obtain ⟨m, rfl⟩ := Nat.exists_eq_succ_of_ne_zero more
    cases m <;> rfl
  unfold Stage.argument
  dsimp only
  rw [bare, onesInteger more, ones, String.toList_ofList, readOnes long]
  rfl

def onesSource (n : Nat) : List Char :=
  Written.outputTag .braces true (Written.expression "upper" [ones n] [])

theorem onesRead {n : Nat} (more : n ≠ 0) : ∃ out p,
    Template.read {} (String.ofList (onesSource n)) = .ok out ∧
      out.template.nodes = [.call p "upper" [ones n] true []] ∧
        out.template.metadata.layout = none := by
  have integer : ∀ a ∈ [ones n], Token.Argument a.toList := fun a member => by
    rw [List.mem_singleton.mp member]
    exact .integer (onesInteger more)
  have written : Written [.call .start "upper" [ones n] true []] (onesSource n ++ []) :=
    .call .braces (by decide) (List.cons_ne_nil _ _) integer (List.forall_mem_nil _) .nil
  rw [List.append_nil] at written
  have body : Frontmatter.split (onesSource n) = none := rfl
  obtain ⟨ms, same, reading⟩ := readingWritten written false ⟨1 + 0 + (0 : Nat), 0⟩
  have single : ∃ p, ms = [.call p "upper" [ones n] true []] := by
    rw [Node.unplacedMap, Node.unplacedMap, List.map_singleton] at same
    obtain ⟨m, rfl, call⟩ := List.map_eq_singleton_iff.mp same
    cases m <;> cases call
    exact ⟨_, rfl⟩
  obtain ⟨p, rfl⟩ := single
  refine ⟨Template.assemble {} [] 0 (onesSource n), p, ?_, ?_, rfl⟩
  · simp only [Template.read, String.toList_ofList, if_true, body]
    rfl
  · simp only [Template.assemble, reading]

theorem unreadEscapes {stage : Stage} {name : String} {f : Function}
    (known : stage.engine.helper? name = some f) {scope : Scope} {token : String} {digits : Nat}
    (unread : stage.argument scope token = .error (.longInteger digits)) (c : RenderContext)
    (level : Nat) (pos : Position) (ns : List (Node Value)) (w : World) :
    ((stage.nodes c level scope (.call pos name [token] true [] :: ns)).on w).1 =
      .error (.longInteger digits) := by
  have args : [token].mapM (stage.argument scope) = .error (.longInteger digits) := by
    rw [List.mapM_cons, unread]
    rfl
  have helper :
      (stage.applyHelper c scope name [token]).on w = (.error (.longInteger digits), w) := by
    unfold Stage.applyHelper
    rw [known, args]
    exact Run.onBindError rfl
  have value : (stage.applyHelper c scope name [token] >>= stage.applyFilters c scope []).on w =
      (.error (.longInteger digits), w) := Run.onBindError helper
  have tried : (Run.attempt (stage.applyHelper c scope name [token] >>=
      stage.applyFilters c scope [])).on w = (.ok (.error (.longInteger digits)), w) := by
    have same : ∀ m : Run Value, (Run.attempt m).on w = (.ok (m.on w).1, (m.on w).2) :=
      fun _ => rfl
    rw [same, value]
  have output : (stage.output? c (stage.applyHelper c scope name [token] >>=
      stage.applyFilters c scope [])).on w = (.error (.longInteger digits), w) :=
    Run.onBindOk tried
  have call : (stage.node c level scope (.call pos name [token] true [])).on w =
      (.error (.longInteger digits), w) := by
    rw [Stage.node, Stage.written]
    exact Run.onBindError output
  rw [Stage.nodes, Run.onBindError call]

/- An argument that cannot be read takes the whole render with it. -/
theorem overlongEscapes : ¬ ∀ (s : Session) (source : String) (t : Template),
    s.engine.loader = .memory {} → s.engine.read source none none = .ok t →
      ∃ text, (s.render (.template t) [] {} .plain).1.output = .ok text := by
  intro gives
  let s : Session := { engine := { helpers := Engine.helperTable [] }, host := Stage.echoHost }
  obtain ⟨out, p, read, nodes, layout⟩ := onesRead (n := 4301) (by decide)
  have parsed : s.engine.read (String.ofList (onesSource 4301)) none none = .ok out.template :=
    congrArg (Except.map Template.Outcome.template) read
  obtain ⟨text, whole⟩ := gives s _ _ rfl parsed
  obtain ⟨f, upper⟩ : ∃ f, s.engine.helper? "upper" = some f :=
    Option.isSome_iff_exists.mp (by decide +kernel)
  have alone : (Page.template out.template).layout? none = none := by
    simp [Page.layout?, Page.ownLayout?, layout]
  have body : (Page.template out.template).body = [.call p "upper" [ones 4301] true []] := nodes
  rw [renderOutput, Stage.pageOutput rfl rfl alone, body] at whole
  unfold Run.output at whole
  rw [unreadEscapes upper (onesArgument (by decide) _ _)] at whole
  cases whole

end Session
end Medley
