import Medley.Function
import Medley.Helper.Dates
import Medley.Helper.Numbers
import Medley.Helper.Sequences
import Medley.Helper.Texts
import Medley.Json.Write
import Medley.Render.Run
import Medley.Translator

/-!
Functions applied to arguments. Built-in functions check the number of their arguments first;
functions of the host program may read and change the metadata of the context they run in.
-/
namespace Medley

/-- What the host program brings along: its functions, its clock with and without an offset from
UTC, what its language adds to values, and how many pieces of content from outside of a template
can be rendered inside of one another. A function sees its arguments, the active context with its
metadata and a number for an object it makes. -/
structure Host where
  call : String → List Value → Option RenderContext → Meta → Nat → Except Fault Value × Meta
  -- whether a function answers later, so that what it gives at once is only a promise
  isDeferred : String → Bool
  utc : Calendar.Moment
  plain : Calendar.Moment
  members : Members := fun _ _ => none
  -- what a method, or whatever else can be called, gives for one argument
  invoke : Foreign → (v : Value) → Except Fault (Subtype v.Made) := fun f _ =>
    .error (.host "TypeError" (f.kind ++ " takes no arguments (1 given)"))
  room : Nat := 1000

namespace Host

def apply (h : Host) (name : String) (args : List Value) : Run Value := do
  let w ← get
  let (answer, entries) := h.call name args w.activeContext? w.activeMeta w.objects
  set { w.withActiveMeta entries with objects := w.objects + 1 }
  Run.ofExcept answer

def holds (h : Host) (name : String) (v : Value) : Run Bool := do
  if h.isDeferred name then return true else return (← h.apply name [v]).truthy

def method (h : Host) (f : Foreign) (v : Value) : Run Value :=
  Run.ofExcept ((h.invoke f v).map Subtype.val)

end Host

namespace Signature

def refusal? (s : Signature) (given : Nat) : Option Fault :=
  let least := s.required.length
  let most := least + s.optional
  if given < least then some (.missingArguments s.name (s.required.drop given))
  else if !s.variadic && most < given then some (.surplusArguments s.name least most given)
  else none

end Signature

namespace Builtin
open Helper

/- A promise of the host program counts as true. -/
def arg (args : List Value) (i : Nat) (fallback : Value) : Value := (args[i]?).getD fallback

def text (s : String) : Except Fault Value := .ok (.text s)

def number (n : Except Fault Number) : Except Fault Value := n.map Number.toValue

def bool (b : Except Fault Bool) : Except Fault Value := b.map Value.bool

def jsonIndent (v : Value) : Except Fault Json.Indent :=
  match v with
  | .null => .ok none
  | v => do return some (← v.toWhole).toNat

/- The value of a function that needs nothing but its arguments, of which there are enough. -/
def evaluate (host : Host) (b : Builtin) (args : List Value) : Except Fault Value :=
  let a := arg args 0 .null
  let second := arg args 1 .null
  match b with
  | formatDate => (Helper.formatDate a (arg args 1 (.text "YYYY-MM-DD"))).map Value.text
  | timeAgo => text (Helper.timeAgo host.utc host.plain a second)
  | shortTimeAgo => text (Helper.shortTimeAgo host.utc host.plain a second)
  | upper => mapText Text.upper a
  | lower => mapText Text.lower a
  | capitalize => mapText Text.capitalize a
  | title => mapText titleText a
  | trim => mapText Text.trim a
  | slugify => mapText slug a
  | truncate => Helper.truncate a (arg args 1 (.int 50)) (arg args 2 (.text "..."))
  | replace => Helper.replace a second (arg args 2 (.text ""))
  | round => number (Helper.round a (arg args 1 (.int 0)))
  | formatNumber => (Helper.formatNumber a (arg args 1 (.int 0))).map Value.text
  | formatPrice => (Helper.formatPrice a (arg args 1 (.text "USD"))).map Value.text
  | percent => (Helper.percent a (arg args 1 (.int 2))).map Value.text
  | length | size => .ok (.int a.length)
  | first => .ok (Helper.first a)
  | last => .ok (Helper.last a)
  | slice => Helper.slice a (arg args 1 (.int 0)) (arg args 2 .null)
  | sort => Helper.sort host.members a second
  | reverse => .ok (Helper.reverse a)
  | join => Helper.join a (arg args 1 (.text ", "))
  | unique => .ok (Helper.unique a)
  | filter => filterBy host.members a second args[2]?
  | map => mapBy host.members a second
  | keys => .ok (Helper.keys a)
  | values => .ok (Helper.values a)
  | has => bool (Helper.has host.members a second)
  | equal => .ok (.bool (a.equal second))
  | unequal => .ok (.bool !(a.equal second))
  | greater => bool (compareNumbers (· == .gt) a second)
  | less => bool (compareNumbers (· == .lt) a second)
  | atLeast => bool (compareNumbers (· != .lt) a second)
  | atMost => bool (compareNumbers (· != .gt) a second)
  | all => .ok (.bool (args.all Value.truthy))
  | any => .ok (.bool (args.any Value.truthy))
  | negate => .ok (.bool !a.truthy)
  | choose =>
      let other := arg args 2 (.text "")
      .ok (if a.truthy then second else if other.truthy then other else .text "")
  | except => .ok (if a.truthy then .text "" else second)
  | json => do text (← Json.write (← jsonIndent (arg args 1 (.int 2))) a)
  | fallback => .ok (if a.absent then arg args 1 (.text "") else a)
  | typeOf => text a.typeWord
  | stringify => Helper.stringify a
  | log => .ok a
  | urlEncode => Helper.urlEncode a
  | urlDecode => Helper.urlDecode a
  | escape => Helper.escape a
  | unescape => Helper.unescape a
  | base64 => Helper.base64 a
  | digest => Helper.digest a

def passing (test : Value → Run Bool) : List Value → Run (List Value)
  | [] => pure []
  | x :: xs => do
      let kept ← test x
      let rest ← passing test xs
      return if kept then x :: rest else rest

def applyToAll (f : Value → Run Value) : List Value → Run (List Value)
  | [] => pure []
  | x :: xs => do
      let y ← f x
      return y :: (← applyToAll f xs)

structure Caller where
  test : Value → Run Bool
  make : Value → Run Value

def caller? (host : Host) : Value → Option Caller
  | .function name _ => some ⟨host.holds name, fun x => host.apply name [x]⟩
  | .foreign f =>
      if f.callable then some ⟨fun x => Value.truthy <$> host.method f x, host.method f⟩ else none
  | _ => none

def apply (host : Host) (b : Builtin) (args : List Value) : Run Value :=
  match b.signature.refusal? args.length with
  | some fault => throw fault
  | none => match b, args with
    | filter, v :: key :: _ => match caller? host key, v.items? with
      | some c, some xs => Value.list <$> passing c.test xs
      | _, _ => Run.ofExcept (filter.evaluate host args)
    | map, v :: key :: _ => match caller? host key, v.items? with
      | some c, some xs => Value.list <$> applyToAll c.make xs
      | _, _ => Run.ofExcept (map.evaluate host args)
    | log, v :: _ => do
        Run.log .debug s!"Template debug: {v.shown}"
        return v
    | b, args => Run.ofExcept (b.evaluate host args)

end Builtin

namespace Function

def currentLocale (w : World) : Value := w.activeMeta.locale

/- A key without a text is handed on, safe if it is safe text. -/
def translateArgs (t : Translator) (current : Value) (args : List Value) : Except Fault Value :=
  match translateSignature.refusal? args.length with
  | some fault => .error fault
  | none => do
      let key := Builtin.arg args 0 .null
      let text ← key.output
      let locale ← t.active (Builtin.arg args 1 .null) current
      return match t.found? text locale with
        | some s => .text s
        | none => Helper.displayed key

def pluralArgs (t : Translator) (current : Value) (args : List Value) : Except Fault Value :=
  match pluralSignature.refusal? args.length with
  | some fault => .error fault
  | none => do
      let key ← (Builtin.arg args 0 .null).output
      let count ← (Builtin.arg args 1 .null).toNumber
      return .text (← t.translatePlural key count.toValue (Builtin.arg args 2 .null) current)

def apply (host : Host) (t : Translator) (f : Function) (args : List Value) : Run Value := do
  match f with
  | .builtin b => b.apply host args
  | .translate => Run.ofExcept (translateArgs t (currentLocale (← get)) args)
  | .translatePlural => Run.ofExcept (pluralArgs t (currentLocale (← get)) args)
  | .host name => host.apply name args

end Function
end Medley
