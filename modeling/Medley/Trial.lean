import Medley.Session
import Medley.Text.Characters

/-!
Templates tried out: rendered with diagnostics on, checked without being rendered, or rendered
many times. Problems are collected as data.
-/
namespace Medley

structure Trial where
  html : String
  errors : List String
  metadata : Metadata

namespace Trial
open Text (dropStart? isDigit)

def isCapital (c : Char) : Bool := 'A' ≤ c && c ≤ 'Z'

def upTo? (stop : List Char) (s : List Char) : Option (List Char × List Char) :=
  match dropStart? stop s, s with
  | some rest, _ => some ([], rest)
  | none, [] => none
  | none, c :: cs => (upTo? stop cs).map fun (before, after) => (c :: before, after)

/- A comment by its code and its message, with what follows it; it ends where the first end is
found. -/
def comment? (s : List Char) : Option (List Char × List Char × List Char) := do
  let s ← dropStart? "<!-- motif M-".toList s
  let category := s.takeWhile isCapital
  let s ← dropStart? ['-'] (s.dropWhile isCapital)
  let number := s.takeWhile isDigit
  let s ← dropStart? ": ".toList (s.dropWhile isDigit)
  if category.isEmpty || number.isEmpty then none
  else
    let (message, rest) ← upTo? " -->".toList s
    return ("M-".toList ++ category ++ '-' :: number, message, rest)

/- `skip` characters belong to a comment already found. -/
def commentsFrom : Nat → List Char → List (List Char × List Char)
  | _, [] => []
  | skip + 1, _ :: rest => commentsFrom skip rest
  | 0, c :: rest => match comment? (c :: rest) with
    | some (code, message, after) =>
        (code, message) :: commentsFrom (rest.length - after.length) rest
    | none => commentsFrom 0 rest

def errorsIn (html : String) : List String :=
  (commentsFrom 0 html.toList).map fun (code, message) =>
    String.ofList code ++ ": " ++ String.ofList message

def ofFault (coloured : Bool) (fault : Fault) : Trial :=
  ⟨"", [fault.compact coloured], Metadata.of [] [] none⟩

/-- Reads and renders a source with diagnostics on. Where the output would have to be awaited
there is none. -/
def ofSource (coloured awaited : Bool) (s : Session) (source : String) (values : Layer) :
    Except Fault Trial := do
  let engine := { s.engine with debug := true }
  let t ← engine.read source none none
  let rendered :=
    if awaited then .error ((Page.template t).unawaited coloured)
    else ({ s with engine }.render (.template t) values {} .plain).1.output
  match rendered with
  | .ok html => return ⟨html, errorsIn html, t.metadata⟩
  | .error fault => if fault.ofTemplate then return ofFault coloured fault else throw fault

def issues (coloured : Bool) (source : String) (name : Option String) :
    Except Fault (List String) := do
  let outcome ← Template.read { name, debug := true } source
  return outcome.issues.map fun i => i.report coloured (some source) name

abbrev Subject := String ⊕ Template

/- Renders a template so many times, and stops at the first fault. -/
def renderTimes (t : Template) (values : Layer) : Nat → Session → Except Fault Session
  | 0, s => .ok s
  | n + 1, s => do
      let (answer, after) := s.render (.template t) values {} .plain
      let _ ← answer.output
      renderTimes t values n after

def rounds (s : Session) (subject : Subject) (values : Layer) (count : Int) :
    Except Fault (Int × Session) := do
  if count < 1 then throw .tooFewIterations
  let t ← match subject with
    | .inl source => s.engine.read source none none
    | .inr t => .ok t
  return (count, ← renderTimes t values count.toNat s)

def comparison (s : Session) (values : Layer) (count : Int) :
    List (String × Subject) → Except Fault (List (String × Int) × Session)
  | [] => .ok ([], s)
  | (label, subject) :: rest => do
      let (n, after) ← rounds s subject values count
      let (rows, last) ← comparison after values count rest
      return ((label, n) :: rows, last)

end Trial
end Medley
