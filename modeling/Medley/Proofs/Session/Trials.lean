import Medley.Proofs.Render.Reports
import Medley.Proofs.Session.Confinement

/-! Templates tried out. A trial gives what a render with diagnostics gives, since a render never
fails by a fault of the template; its errors are read off the comments, all of which have a code. -/
namespace Medley

namespace Node

def Coded (n : Node Value) : Prop :=
  ∀ pos code message source, n = .diagnostic pos code message source → ∃ c : Code, code = c.text

theorem commonCoded (debug : Bool) :
    Common debug fun n => Layer.Plain n.props ∧ n.Coded := by
  refine .ofOther (fun n plain _ other => ⟨plain, fun pos code message source same =>
    absurd same (other pos code message source)⟩) fun _ p code message source => ?_
  refine ⟨List.forall_mem_nil _, fun pos code' message' source' same => ?_⟩
  cases same
  exact ⟨code, rfl⟩

end Node

theorem Template.IsRead.coded {t : Template} (h : t.IsRead) :
    (Bounds.content Node.Coded fun _ => True).Holds t := by
  obtain ⟨debug, issues, o, source, _, read⟩ := h
  have every := Template.readEvery (Node.commonCoded o.debug) read
  exact ⟨fun n member => (every.nodes n member).holds (fun _ h => h.1) fun _ h => h.2,
    every.data.holds, fun _ _ => trivial⟩

namespace Engine
variable {e : Engine} {b : Bounds}

theorem alikeHolds (registered : ∀ kind, ∀ d ∈ e.registered.ofKind kind, b.Holds d.2)
    (fetched : ∀ kind name t, e.fetch kind name = .ok t → b.Holds t) :
    e.Alike b (fun c c' => c' = c ∧ ∀ d ∈ c.entries, b.Holds d.2) e where
  found kind name c c' _ _ both := by
    obtain ⟨rfl, cached⟩ := both
    cases found : e.resolved c' kind name with
    | error fault => exact .error fault
    | ok o =>
      cases o with
      | none => exact .ok .none
      | some t => exact .ok (.some rfl rfl (resolvedHolds registered fetched cached found))
  kept kind name c c' _ _ both := by
    obtain ⟨rfl, cached⟩ := both
    exact ⟨rfl, afterResolveHolds fetched cached kind name⟩

end Engine

namespace Stage
variable {e : Engine} {h : Host} {b : Bounds} {C : Cache → Cache → Prop}

/- One output, with codes of comments only that are known. -/
def SameCoded (cs cs' : List Chunk) : Prop := cs' = cs ∧ ∀ chunk ∈ cs, chunk.Coded

theorem lockstepCoded (closed : b.Closed) (keeps : h.Keeps b.value) (alike : e.Alike b C e)
    (coded : ∀ pos code message source, b.node (.diagnostic pos code message source) →
      (Chunk.diagnostic code message).Coded) :
    Lockstep (World.Alike SameCoded b C) (Beside (.of e h .plain) (.of e h .plain)) b (.of e h .plain)
      (.of e h .plain) := by
  have emits : ∀ chunk : Chunk, chunk.Coded → Run.Matches (World.Alike SameCoded b C)
      (Run.emit .plain chunk) (Run.emit .plain chunk) fun _ _ => True := by
    refine fun chunk known => Run.emitPlain fun cs cs' both => ?_
    obtain ⟨rfl, before⟩ := both
    exact ⟨rfl, List.forall_mem_cons.mpr ⟨known, before⟩⟩
  have same : ∀ c c', Beside (.of e h .plain) (.of e h .plain) c c' → c' = c := by
    intro c c' beside
    rw [beside.2, ← beside.1]
  refine lockstepOf closed keeps alike (besideEven _ _) (fun c c' beside => ?_) rfl rfl rfl
    (fun chunk plain => emits chunk ?_) (fun c c' code message beside => ?_)
    fun pos code message source here => emits _ (coded pos code message source here)
  · rw [same c c' beside]
    exact fun _ _ _ _ => rfl
  · cases chunk with
    | comment | diagnostic => contradiction
    | literal | value => exact fun _ _ nothing => by cases nothing
  · rw [same c c' beside]
    unfold comment
    split
    · exact emits _ (Chunk.codedComment code message)
    · exact .pure trivial

end Stage

namespace Session
variable {s : Session}

theorem chunksCoded (templates : s.OnlyRead) {t : Template} (page : t.IsRead) {values : Layer}
    {o : RenderOptions} (outside : s.Supplies Node.Coded values o) :
    ∀ chunk ∈ (s.render (.template t) values o .plain).1.chunks, chunk.Coded := by
  have closed : (Bounds.content Node.Coded fun _ => True).Closed :=
    Bounds.contentClosed fun n _ => n.refersAnywhere
  have alike := Engine.alikeHolds
    (fun kind d member => (templates.registered kind d member).coded)
    fun kind name t found => Template.IsRead.coded ⟨_, Engine.fetchRead found⟩
  have pair := Stage.lockstepCoded closed outside.host alike
    fun pos code message source here text said same => by
      cases same
      exact here.here pos code message source rfl
  have both := Stage.pageMatches pair (.template t) (Stage.besideStart rfl _) rfl rfl values o
    outside.globals outside.values page.coded.data page.coded.nodes (fun _ _ => trivial)
    { cache := s.cache, objects := s.objects } { cache := s.cache, objects := s.objects }
    ⟨⟨rfl, List.forall_mem_nil _⟩, rfl, outside.metadata, rfl, rfl,
      fun d member => (templates.cached d member).coded⟩
  exact fun chunk member => both.1.chunks.2 chunk (List.mem_reverse.mp member)

theorem renderFault {t : Template} {values : Layer} {o : RenderOptions} {f : Fault}
    (h : (s.render (.template t) values o .plain).1.result = .error f) : f.ofTemplate = false := by
  have confines := Stage.confinesEvery (e := s.engine) (F := fun f => f.ofTemplate = false)
    (fun f escapes => escapes.elim
      (fun long => long.elim Fault.IsOverlong.ofTemplate fun same => same ▸ rfl)
      fun same => same ▸ rfl)
    (fun _ _ _ _ failed => (Engine.resolvedFault failed).2) s.host
  have within : World.Within .all
      { cache := s.cache, objects := s.objects, metadata := o.metadata } :=
    ⟨fun _ _ => ⟨fun _ _ => trivial, fun _ _ => trivial, fun _ _ => trivial⟩, fun _ _ => trivial⟩
  have result : Within (fun _ => True) (fun f => f.ofTemplate = false)
      (s.render (.template t) values o .plain).1.result :=
    Stage.pageMeets (w := { cache := s.cache, objects := s.objects }) confines (.template t) rfl rfl
      o (fun _ _ => trivial) (fun _ _ => trivial) (fun _ _ => trivial) (fun _ _ => trivial)
      (fun _ _ => trivial) within
  rw [h] at result
  cases result with
  | error other => exact other

def debugging (s : Session) : Session := { s with engine := { s.engine with debug := true } }

end Session

namespace Trial
variable {s : Session} {source : String} {t : Template} {values : Layer}

def ofPage (t : Template) (html : String) : Trial := ⟨html, errorsIn html, t.metadata⟩

def ofOutput (coloured : Bool) (t : Template) : Except Fault String → Except Fault Trial
  | .ok html => .ok (ofPage t html)
  | .error fault => if fault.ofTemplate then .ok (ofFault coloured fault) else .error fault

theorem ofSourceRead (coloured : Bool)
    (read : s.debugging.engine.read source none none = .ok t) :
    ofSource coloured false s source values =
      (s.debugging.render (.template t) values {} .plain).1.output.map (ofPage t) := by
  have step : ofSource coloured false s source values =
      (s.debugging.engine.read source none none).bind fun t =>
        ofOutput coloured t (s.debugging.render (.template t) values {} .plain).1.output := rfl
  rw [step, read]
  dsimp only [Except.bind]
  cases given : (s.debugging.render (.template t) values {} .plain).1.output with
  | ok html => rfl
  | error fault =>
    have other := Session.renderFault (errorMap given)
    rw [ofOutput, other]
    rfl

/-- Where the templates were read from sources, a trial fails as the render with diagnostics does,
and else gives its page. Where nothing between the comments has their mark, its errors are one for
each comment, in order, with the whole message that was written, if and only if in no message three,
five, seven or more dashes stand before a `>`. -/
theorem problemsReadBack (templates : s.OnlyRead) (outside : s.Supplies Node.Coded values {})
    (coloured : Bool) (read : s.debugging.engine.read source none none = .ok t) :
    let answer := (s.debugging.render (.template t) values {} .plain).1
    (∀ fault, answer.result = .error fault →
      ofSource coloured false s source values = .error fault) ∧
    (answer.result = .ok () → ∃ trial, ofSource coloured false s source values = .ok trial ∧
      trial.html = String.join (answer.chunks.map Chunk.text) ∧ trial.metadata = t.metadata ∧
      (Chunk.Unmarked answer.chunks →
        (trial.errors = answer.chunks.filterMap Chunk.report? ↔
          ∀ chunk ∈ answer.chunks, ∀ code message, chunk.note? = some (code, message) →
            ¬ Text.OddArrow message.toList))) := by
  dsimp only
  have trial := @ofSourceRead s source t values coloured read
  obtain ⟨out, found, rfl⟩ := okMap read
  have page : out.template.IsRead := ⟨true, out.issues, _, source, rfl, found⟩
  have coded := s.debugging.chunksCoded ⟨templates.registered, templates.cached⟩ page
    ⟨outside.host, outside.globals, outside.values, outside.metadata⟩
  unfold Answer.output at trial
  refine ⟨fun fault failed => ?_, fun done => ?_⟩
  · rw [trial, failed]
    rfl
  · rw [done] at trial
    exact ⟨_, trial, rfl, rfl, Chunk.reportsRead coded⟩

def failing : Session where
  engine := { helpers := [("boom", .host "boom")] }
  host := { Stage.echoHost with
    call := fun _ args _ entries _ =>
      (.error (.host "ValueError" (match args with | [.text s] => s | _ => "")), entries) }

theorem failingOnlyRead : failing.OnlyRead := by
  refine ⟨fun kind e member => ?_, List.forall_mem_nil _⟩
  cases kind <;> cases member

theorem failingSupplies : failing.Supplies Node.Coded [] {} := by
  refine ⟨fun _ _ _ _ _ _ held => ⟨fun _ nothing => ?_, held⟩, List.forall_mem_nil _,
    List.forall_mem_nil _, List.forall_mem_nil _⟩
  cases nothing

def brokenSource : String := "a\x7b\x7b boom \"x--y\" \x7d\x7d\x7b\x7b/if\x7d\x7db"

def brokenNodes : List (Node Value) :=
  [.text ⟨1, 0⟩ "a", .call ⟨1, 1⟩ "boom" ["\"x--y\""] true [],
    .diagnostic ⟨1, 18⟩ "M-PAR-003" "\x7b\x7b/if\x7d\x7d without an open block"
      "\x7b\x7b/if\x7d\x7d",
    .text ⟨1, 25⟩ "b"]

def brokenPage : Template := ⟨brokenNodes, .of brokenNodes [] none, none, none⟩

theorem brokenRead : failing.debugging.engine.read brokenSource none none = .ok brokenPage := by cbv

def brokenAnswer : Answer Unit :=
  (failing.debugging.render (.template brokenPage) [] {} .plain).1

theorem brokenChunks : brokenAnswer.result = .ok () ∧ brokenAnswer.chunks =
    [.literal "a", .comment "M-RUN-002" "Helper 'boom' raised ValueError: x--y",
      .diagnostic "M-PAR-003" "\x7b\x7b/if\x7d\x7d without an open block", .literal "b"] := by
  simp only [brokenAnswer, Session.render, Session.perform, Session.performIn, Stage.page,
    brokenPage, Page.body, brokenNodes, Stage.nodes, Stage.node, Stage.written]
  exact ⟨rfl, rfl⟩

theorem brokenReadBack : ∃ trial, ofSource false false failing brokenSource [] = .ok trial ∧
    trial.errors = ["M-RUN-002: Helper 'boom' raised ValueError: x- -y",
      "M-PAR-003: \x7b\x7b/if\x7d\x7d without an open block"] := by
  obtain ⟨done, chunks⟩ := brokenChunks
  obtain ⟨trial, given, _, _, errors⟩ :=
    (problemsReadBack failingOnlyRead failingSupplies false brokenRead).2 done
  have unmarked : Chunk.Unmarked brokenAnswer.chunks := by
    rw [chunks]
    exact Chunk.unmarkedWithout (by decide)
  refine ⟨trial, given, ((errors unmarked).mpr fun chunk member code message note odd => ?_).trans ?_⟩
  · have three := Text.oddArrowThree odd
    change chunk ∈ brokenAnswer.chunks at member
    rw [chunks] at member
    simp only [List.mem_cons, List.not_mem_nil, or_false] at member
    rcases member with rfl | rfl | rfl | rfl <;> cases note <;> exact absurd three (by decide)
  · change brokenAnswer.chunks.filterMap Chunk.report? = _
    rw [chunks]
    decide

def arrowSource : String := "\x7b\x7b boom \"--->\" \x7d\x7d"

def arrowNodes : List (Node Value) := [.call ⟨1, 0⟩ "boom" ["\"--->\""] true []]

def arrowPage : Template := ⟨arrowNodes, .of arrowNodes [] none, none, none⟩

theorem arrowRead : failing.debugging.engine.read arrowSource none none = .ok arrowPage := by cbv

def arrowAnswer : Answer Unit := (failing.debugging.render (.template arrowPage) [] {} .plain).1

theorem arrowChunks : arrowAnswer.result = .ok () ∧ arrowAnswer.chunks =
    [.comment "M-RUN-002" "Helper 'boom' raised ValueError: --->"] := by
  simp only [arrowAnswer, Session.render, Session.perform, Session.performIn, Stage.page,
    arrowPage, Page.body, arrowNodes, Stage.nodes, Stage.node, Stage.written]
  exact ⟨rfl, rfl⟩

/- A message is read up to the end that spacing its dashes leaves in it. -/
theorem arrowCutsMessage : ¬ ∀ (s : Session) (source : String) (t : Template) (values : Layer),
    s.OnlyRead → s.Supplies Node.Coded values {} →
    s.debugging.engine.read source none none = .ok t →
    let answer := (s.debugging.render (.template t) values {} .plain).1
    answer.result = .ok () → Chunk.Unmarked answer.chunks →
      ofSource false false s source values =
        .ok ⟨String.join (answer.chunks.map Chunk.text), answer.chunks.filterMap Chunk.report?,
          t.metadata⟩ := by
  intro reported
  obtain ⟨done, chunks⟩ := arrowChunks
  have unmarked : Chunk.Unmarked arrowAnswer.chunks := by
    rw [chunks]
    exact Chunk.unmarkedWithout (by decide)
  have given := reported failing arrowSource arrowPage [] failingOnlyRead failingSupplies arrowRead
    done unmarked
  rw [ofSourceRead false arrowRead] at given
  change arrowAnswer.output.map (ofPage arrowPage) = .ok ⟨_, arrowAnswer.chunks.filterMap _, _⟩
    at given
  unfold Answer.output at given
  rw [done, chunks] at given
  have errors := congrArg Trial.errors (Except.ok.inj given)
  exact absurd errors (by decide)

end Trial
end Medley
