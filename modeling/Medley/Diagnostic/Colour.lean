import Medley.Fault
import Medley.Value.Written

/-!
Colours of diagnostics on a terminal. Text is put between escape sequences where colours are
wanted and left as it is otherwise.
-/
namespace Medley

inductive Style where
  | reset | bold | dim | yellow | cyan | green | brightRed
  deriving DecidableEq, Repr

namespace Style

def all : List Style := [reset, bold, dim, yellow, cyan, green, brightRed]

def name : Style → String
  | reset => "reset"
  | bold => "bold"
  | dim => "dim"
  | yellow => "yellow"
  | cyan => "cyan"
  | green => "green"
  | brightRed => "bright_red"

def number : Style → Nat
  | reset => 0
  | bold => 1
  | dim => 2
  | yellow => 33
  | cyan => 36
  | green => 32
  | brightRed => 91

def ofName? (s : String) : Option Style := all.find? fun style => style.name = s

theorem ofName?_name (s : Style) : ofName? s.name = some s := by cases s <;> decide

def sequence (s : Style) : String := s!"\x1B[{s.number}m"

end Style

structure Terminal where
  forced : Bool
  refused : Bool
  interactive : Bool
  deriving DecidableEq, Repr

/-- Forcing colours wins over refusing them; by themselves they are for interactive terminals. -/
def Terminal.coloured (t : Terminal) : Bool := t.forced || (!t.refused && t.interactive)

namespace Colour

def paint (coloured : Bool) (styles : List Style) (s : String) : String :=
  if coloured && !styles.isEmpty then
    String.join (styles.map Style.sequence) ++ s ++ Style.reset.sequence
  else s

/- The same by names of styles; an unknown one is refused only where it would be used. -/
def paintNamed (coloured : Bool) (names : List String) (s : String) : Except Fault String :=
  if coloured then do
    let styles ← names.mapM fun n => match Style.ofName? n with
      | some style => .ok style
      | none => .error (.noSuchKey (shownText n))
    return paint true styles s
  else .ok s

def errorCode (coloured : Bool) : String → String := paint coloured [.brightRed, .bold]

def location (coloured : Bool) : String → String := paint coloured [.cyan]

def lineNumber (coloured : Bool) : String → String := paint coloured [.yellow]

def errorLine (coloured : Bool) : String → String := paint coloured [.brightRed]

def hint (coloured : Bool) : String → String := paint coloured [.green]

def faint (coloured : Bool) : String → String := paint coloured [.dim]

def header (coloured : Bool) (code : Option String) (message : String) : String :=
  match code with
  | some code => if code.isEmpty then message else errorCode coloured code ++ ": " ++ message
  | none => message

def alignRight (width : Nat) (s : String) : String :=
  String.ofList (List.replicate (width - s.length) ' ') ++ s

def sourceLine (coloured : Bool) (line : Int) (content : String) (marked : Bool) : String :=
  let number := (if marked then ">" else " ") ++ alignRight 3 (shownInt line)
  lineNumber coloured number ++ " | " ++
    (if marked then errorLine coloured content else faint coloured content)

def within (lo hi : Nat) (c : Char) : Bool := lo ≤ c.toNat && c.toNat ≤ hi

/- `skip` characters belong to a sequence already found. -/
def sequenceWidth? : List Char → Option Nat
  | [] => none
  | '[' :: rest =>
      let parameters := rest.takeWhile (within 0x30 0x3F)
      let rest := rest.dropWhile (within 0x30 0x3F)
      let between := rest.takeWhile (within 0x20 0x2F)
      match rest.dropWhile (within 0x20 0x2F) with
      | c :: _ =>
          if within 0x40 0x7E c then some (parameters.length + between.length + 2) else none
      | [] => none
  | c :: _ => if within 0x40 0x5F c then some 1 else none

def stripFrom : Nat → List Char → List Char
  | _, [] => []
  | skip + 1, _ :: rest => stripFrom skip rest
  | 0, c :: rest =>
      match if c = '\x1B' then sequenceWidth? rest else none with
      | some width => stripFrom width rest
      | none => c :: stripFrom 0 rest

def strip (s : String) : String := String.ofList (stripFrom 0 s.toList)

end Colour
end Medley
