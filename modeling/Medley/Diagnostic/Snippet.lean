import Medley.Diagnostic.Code
import Medley.Diagnostic.Colour
import Medley.Text.Lines
import Medley.Text.Search

/-!
Diagnostics with the lines of source around them, and the chain of templates that led to a
place.
-/
namespace Medley

structure Snippet where
  lines : List (Int × String)
  errorLine : Int
  column : Option Int
  deriving DecidableEq, Repr

namespace Snippet

/-- The line in question with so many lines on either side, as far as there are any. -/
def ofSource (source : String) (errorLine context : Int) (column : Option Int) : Snippet :=
  let all := Text.lines source.toList
  let start := (max 0 (errorLine - 1 - context)).toNat
  let stop := (min (all.length : Int) (errorLine + context)).toNat
  let chosen := ((all.zipIdx.take stop).drop start).map fun (line, i) =>
    ((i : Int) + 1, String.ofList line)
  ⟨chosen, errorLine, column⟩

def caret (column : Int) : String := String.ofList (List.replicate column.toNat ' ') ++ "^"

def text (coloured : Bool) (s : Snippet) : String :=
  let bar := Colour.faint coloured "   |"
  let lines := s.lines.map fun (n, line) =>
    Colour.sourceLine coloured n line (n = s.errorLine)
  let pointer := match s.column with
    | some column => [bar ++ " " ++ Colour.errorLine coloured (caret column)]
    | none => []
  String.intercalate "\n" (bar :: lines ++ pointer ++ [bar])

end Snippet

def Issue.report (coloured : Bool) (source : Option String) (name : Option String) (i : Issue) :
    String :=
  let name := match name with
    | some n => if n.isEmpty then "<template>" else n
    | none => "<template>"
  let place := s!"{name}:{shownInt i.pos.line}:{shownInt i.pos.column}"
  let parts := [Colour.header coloured (some i.code.text) i.message,
    "  --> " ++ Colour.location coloured place]
  let snippet := match source with
    | some s =>
        if s.isEmpty then []
        else [(Snippet.ofSource s i.pos.line 1 (some i.pos.column)).text coloured]
    | none => []
  String.intercalate "\n" (parts ++ snippet)

def Template.chainText (coloured : Bool) (chain : List (String × Int)) : String :=
  if chain.isEmpty then ""
  else String.intercalate "\n" (Colour.faint coloured "Template stack:" ::
    chain.map fun (name, line) => "  • " ++ Colour.location coloured s!"{name}:{shownInt line}")

namespace Fault

/- Misuse of the rendering functions, in a template and with a remedy where they are known. -/
def ofMisuse (coloured : Bool) (message : String) (template suggestion : Option String) : Fault :=
  let line (s : Option String) (f : String → String) : List String := match s with
    | some s => if s.isEmpty then [] else [f s]
    | none => []
  .misuse message template suggestion <| String.intercalate "\n" <|
    ["Runtime Error: " ++ message] ++
    line template (fun t => "  Location: " ++ Colour.location coloured t) ++
    line suggestion (fun s => "\n  " ++ Colour.hint coloured "Suggestion:" ++ " " ++ s)

def compact (coloured : Bool) : Fault → String
  | misuse message template suggestion _ =>
      let line (s : Option String) (f : String → String) : List String := match s with
        | some s => if s.isEmpty then [] else [f s]
        | none => []
      String.intercalate "\n" <|
        [Colour.header coloured (some Code.runtimeError.text) message] ++
        line template (fun t => "  Location: " ++ Colour.location coloured t) ++
        line suggestion (fun s => "  " ++ Colour.hint coloured "Hint:" ++ " " ++ s)
  | f => match f.code? with
    | some code =>
        if Text.contains code.text.toList f.message.toList then f.message
        else code.text ++ ": " ++ f.message
    | none => f.message

end Fault
end Medley
