import Medley.Cache
import Medley.Diagnostic.Code
import Medley.Encoding.Text
import Medley.Render.Context
import Medley.Text.Search

/-!
Steps of a render. A step may write chunks of output and log messages, change the metadata of
the active context and the cache, and fail; what it did before it failed stays done.
-/
namespace Medley

/- A piece of output by where it is from: text of a template, a value, a comment on a problem of the
render, or what a diagnostic of the template says. -/
inductive Chunk where
  | literal (s : String)
  | value (s : String)
  | comment (code message : String)
  | diagnostic (code message : String)
  deriving DecidableEq, Repr

namespace Chunk

/- Two dashes in a row get a blank between them, from the left. -/
def spaceDashes (s : String) : String :=
  String.ofList (Text.replace ['-', '-'] ['-', ' ', '-'] s.toList)

def text : Chunk → String
  | literal s | value s => s
  | comment code message | diagnostic code message =>
      "<!-- motif " ++ code ++ ": " ++ spaceDashes message ++ " -->"

end Chunk

inductive Sink where
  | plain
  -- something of the given kind that takes no output
  | unusable (kind : String)
  -- output is encoded on its way
  | encoded (encoding : String)
  -- after so many chunks the other end is gone
  | breaking (after : Nat) (fault : Fault)

def Encoding.bytesOf (encoding text : String) : Except Fault Encoding.Bytes := do
  (← Encoding.ofName encoding).encode text.toList

namespace Sink

def unusable? : Sink → Option Fault
  | unusable kind => some (.invalidSink kind)
  | _ => none

def refusal? (s : Sink) (taken : Nat) (chunk : String) : Option Fault :=
  match s with
  | plain => none
  | unusable kind => some (.invalidSink kind)
  | encoded encoding => match Encoding.bytesOf encoding chunk with
    | .error f => some f
    | .ok _ => none
  | breaking after fault => if after ≤ taken then some fault else none

end Sink

structure World where
  -- the output, the latest chunk first
  chunks : List Chunk := []
  -- the messages, the latest first
  logs : List Log := []
  -- the metadata of the render's own family of contexts
  metadata : Meta := []
  cache : Cache := {}
  -- how many objects the host program has made
  objects : Nat := 0
  -- the contexts around the render, and those of its own that are active
  contexts : Contexts := {}

namespace World

/- The number of the render's own family, which comes after those around it. -/
def family (w : World) : Nat := w.contexts.families.length

def activeContext? (w : World) : Option RenderContext := w.contexts.current?.map Member.context

def activeMeta (w : World) : Meta :=
  match w.contexts.current? with
  | some m => if m.family = w.family then w.metadata else w.contexts.metaOf m
  | none => []

def withActiveMeta (w : World) (entries : Meta) : World :=
  match w.contexts.current? with
  | some m =>
      if m.family = w.family then { w with metadata := entries }
      else { w with contexts := w.contexts.withMeta m entries }
  | none => w

def enter (w : World) (c : RenderContext) : World :=
  { w with contexts := w.contexts.install ⟨c, w.family⟩ }

def leave (w : World) : World := { w with contexts := w.contexts.exit }

end World

abbrev Run := ExceptT Fault (StateM World)

namespace Run

def log (level : Level) (message : String) : Run Unit :=
  modify fun w => { w with logs := ⟨level, message⟩ :: w.logs }

def emit (sink : Sink) (chunk : Chunk) : Run Unit := do
  let w ← get
  match sink.refusal? w.chunks.length chunk.text with
  | some fault => throw fault
  | none => set { w with chunks := chunk :: w.chunks }

def ofExcept {α : Type} : Except Fault α → Run α
  | .ok a => pure a
  | .error f => throw f

def attempt {α : Type} (step : Run α) : Run (Except Fault α) := ExceptT.lift step.run

/-- Runs a step in a context of the render's own. The context before is active again afterwards,
also where the step fails. -/
def within {α : Type} (c : RenderContext) (step : Run α) : Run α := do
  modify fun w => w.enter c
  let answer ← attempt step
  modify World.leave
  ofExcept answer

end Run
end Medley
