import Medley.Debounce
import Medley.Registry
import Medley.Render.Render

/-!
An environment at work: an engine with the host program it serves, the templates it remembers
and the changes it has been told of. Every operation gives an answer and the session after it.
-/
namespace Medley

/-- What a step gave: its result, what it wrote and what it logged, both in order. -/
structure Answer (α : Type) where
  result : Except Fault α
  chunks : List Chunk := []
  logs : List Log := []

namespace Answer

def ok {α : Type} (value : α) : Answer α := { result := .ok value }

def error {α : Type} (fault : Fault) : Answer α := { result := .error fault }

def output (a : Answer Unit) : Except Fault String :=
  a.result.map fun _ => String.join (a.chunks.map Chunk.text)

end Answer

inductive Manner where
  | whole
  | awaited
  | chunked
  | toSink
  | inLayout
  deriving DecidableEq, Repr

def Manner.name : Manner → String
  | whole => "render"
  | awaited => "render_async"
  | chunked => "render_stream_async"
  | toSink => "stream_to"
  | inLayout => "render_with_layout"

/- The values for a render: a map by position, and values by name, which win. -/
structure Arguments where
  positional : List Value := []
  named : Layer := []

def Arguments.values (a : Arguments) (manner : Manner) : Except Fault Layer :=
  match a.positional with
  | [] => .ok (Meta.merge [] a.named)
  | [.map entries] => .ok (Meta.merge (Value.layer entries) a.named)
  | given => .error (.notContext manner.name given.length)

namespace Page

/- A page cannot be rendered as a whole where the output would have to be awaited. -/
def unawaited (coloured : Bool) (p : Page) : Fault :=
  .ofMisuse coloured "render() cannot run inside a running event loop" p.name?
    (some "await env.render_async(...) instead")

end Page

namespace Template

def shown (t : Template) : String :=
  let name := t.name.getD ""
  "<Template " ++ (if name.isEmpty then "(inline)" else name) ++ ">"

def orphaned (t : Template) : Fault :=
  let name := t.name.getD ""
  .environmentGone (if name.isEmpty then "unknown" else name)

end Template

structure Session where
  engine : Engine
  host : Host
  cache : Cache := {}
  -- how many objects the host program has made
  objects : Nat := 0
  debouncer : Debouncer := { delayed := true }

namespace Session

def performIn {α : Type} (s : Session) (k : Contexts) (step : Run α) :
    Answer α × Session × Contexts :=
  let (result, w) := step.run.run { cache := s.cache, objects := s.objects, contexts := k }
  (⟨result, w.chunks.reverse, w.logs.reverse⟩, { s with cache := w.cache, objects := w.objects },
    w.contexts)

def perform {α : Type} (s : Session) (step : Run α) : Answer α × Session :=
  let (answer, s, _) := s.performIn {} step
  (answer, s)

def load (s : Session) (kind : Kind) (name : String) : Answer Template × Session :=
  s.perform (s.engine.load kind name)

def load? (s : Session) (kind : Kind) (name : String) : Answer (Option Template) × Session :=
  s.perform (s.engine.load? kind name)

def resolve? (s : Session) (kind : Kind) (name : String) : Answer (Option Template) × Session :=
  s.perform (s.engine.resolve? kind name)

def call (s : Session) (f : Function) (args : List Value) : Answer Value × Session :=
  s.perform (f.apply s.host s.engine.translator args)

def stage (s : Session) (sink : Sink) : Stage := .of s.engine s.host sink

/- Renders inside of contexts of the host program. The render starts from the metadata of the active
one. -/
def renderIn (s : Session) (k : Contexts) (p : Page) (values : Layer) (o : RenderOptions)
    (sink : Sink) : Answer Unit × Session × Contexts :=
  s.performIn k ((s.stage sink).page p values (o.inside k))

def render (s : Session) (p : Page) (values : Layer) (o : RenderOptions) (sink : Sink) :
    Answer Unit × Session :=
  s.perform ((s.stage sink).page p values o)

def renderTemplate (s : Session) (manner : Manner) (t : Template) (a : Arguments)
    (o : RenderOptions) (sink : Sink) : Answer Unit × Session :=
  match a.values manner with
  | .ok values => s.render (.template t) values o sink
  | .error fault => (.error fault, s)

def binarySink (s : Session) : Sink := .encoded s.engine.loader.encoding

def clearCache (s : Session) : Answer Unit × Session :=
  ({ result := .ok ()
     logs := [⟨.debug, s!"Cleared template cache ({s.cache.size} entries)"⟩] },
    { s with cache := s.cache.clear })

/- A report of changes drops the templates that are remembered. -/
def settle (s : Session) (d : Debouncer) (report : Option Debouncer.Report) :
    Answer Unit × Session :=
  let s := { s with debouncer := d }
  match report with
  | none => (.ok (), s)
  | some r =>
      let (a, s) := s.clearCache
      ({ a with logs := r.log :: a.logs }, s)

def notify (s : Session) (path : Option String) : Answer Unit × Session :=
  let (d, report) := s.debouncer.trigger path
  s.settle d report

def flush (s : Session) : Answer Unit × Session :=
  let (d, report) := s.debouncer.flush
  s.settle d report

def cancel (s : Session) : Session := { s with debouncer := s.debouncer.cancel }

def isWatched (s : Session) : Bool := s.engine.cached || s.debouncer.pending

end Session

def Template.renderIn (t : Template) (s : Option Session) (a : Arguments) (o : RenderOptions) :
    Answer Unit × Option Session :=
  match s with
  | none => (.error t.orphaned, none)
  | some s =>
      let (answer, s) := s.renderTemplate .whole t a o .plain
      (answer, some s)

end Medley
