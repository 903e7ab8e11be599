/-!
Diagnostics: the places they are about, their codes, the issues of a template, and messages for
whoever runs the engine. A code is `M-`, a category of three letters and a number.
-/
namespace Medley

/- Lines are counted from 1, and columns from 0 in characters. Only a line feed begins a line. -/

structure Position where
  line : Int
  column : Int
  deriving DecidableEq, Repr

namespace Position

def start : Position := ⟨1, 0⟩

def next (p : Position) (c : Char) : Position :=
  if c = '\n' then ⟨p.line + 1, 0⟩ else ⟨p.line, p.column + 1⟩

def advance (p : Position) (s : List Char) : Position := s.foldl next p

theorem advance_append (p : Position) (s t : List Char) :
    p.advance (s ++ t) = (p.advance s).advance t := List.foldl_append ..

end Position

inductive Code where
  | unclosedTag
  | unclosedBlock
  | strayClose
  | unknownBlock
  | emptyTag
  | unclosedComponent
  | helperNotFound
  | helperError
  | filterNotFound
  | filterError
  | depthExceeded
  | runtimeError
  | templateNotFound
  | partialNotFound
  | componentNotFound
  | layoutNotFound
  | loadError
  deriving DecidableEq, Repr

namespace Code

def all : List Code :=
  [unclosedTag, unclosedBlock, strayClose, unknownBlock, emptyTag, unclosedComponent,
   helperNotFound, helperError, filterNotFound, filterError, depthExceeded, runtimeError,
   templateNotFound, partialNotFound, componentNotFound, layoutNotFound, loadError]

def text : Code → String
  | unclosedTag => "M-PAR-001"
  | unclosedBlock => "M-PAR-002"
  | strayClose => "M-PAR-003"
  | unknownBlock => "M-PAR-004"
  | emptyTag => "M-PAR-005"
  | unclosedComponent => "M-PAR-006"
  | helperNotFound => "M-RUN-001"
  | helperError => "M-RUN-002"
  | filterNotFound => "M-RUN-003"
  | filterError => "M-RUN-004"
  | depthExceeded => "M-RUN-005"
  | runtimeError => "M-RUN-006"
  | templateNotFound => "M-TPL-001"
  | partialNotFound => "M-TPL-002"
  | componentNotFound => "M-TPL-003"
  | layoutNotFound => "M-TPL-004"
  | loadError => "M-TPL-005"

def label : Code → String
  | unclosedTag => "UNCLOSED_TAG"
  | unclosedBlock => "UNCLOSED_BLOCK"
  | strayClose => "STRAY_CLOSE"
  | unknownBlock => "UNKNOWN_BLOCK"
  | emptyTag => "EMPTY_TAG"
  | unclosedComponent => "UNCLOSED_COMPONENT"
  | helperNotFound => "HELPER_NOT_FOUND"
  | helperError => "HELPER_ERROR"
  | filterNotFound => "FILTER_NOT_FOUND"
  | filterError => "FILTER_ERROR"
  | depthExceeded => "DEPTH_EXCEEDED"
  | runtimeError => "RUNTIME_ERROR"
  | templateNotFound => "TEMPLATE_NOT_FOUND"
  | partialNotFound => "PARTIAL_NOT_FOUND"
  | componentNotFound => "COMPONENT_NOT_FOUND"
  | layoutNotFound => "LAYOUT_NOT_FOUND"
  | loadError => "LOAD_ERROR"

def category : Code → String
  | unclosedTag | unclosedBlock | strayClose | unknownBlock | emptyTag | unclosedComponent =>
      "parser"
  | helperNotFound | helperError | filterNotFound | filterError | depthExceeded | runtimeError =>
      "runtime"
  | templateNotFound | partialNotFound | componentNotFound | layoutNotFound | loadError =>
      "template"

def ofText? (s : String) : Option Code := all.find? fun c => c.text = s

theorem mem_all (c : Code) : c ∈ all := by cases c <;> decide

theorem ofText?_text (c : Code) : ofText? c.text = some c := by cases c <;> decide

end Code

/- What a reader of templates had to put up with: a malformed construct, where it stands and the text
it was taken for. -/
structure Issue where
  code : Code
  message : String
  pos : Position
  source : String
  deriving DecidableEq, Repr

inductive Level where
  | debug
  | warning
  deriving DecidableEq, Repr

structure Log where
  level : Level
  message : String
  deriving DecidableEq, Repr

end Medley
