import Medley.Decimal.Read
import Medley.Text.Blank
import Medley.Text.Search
import Medley.Value.Written

/-!
Names that a template can see, in layers, and dotted paths through them. A path that is itself
a name wins over its parts. Maps are entered by key, sequences by index or `length`, and anything
else by attribute; what is not there is undefined.
-/
namespace Medley
open Text (trim cutChar splitOnChar)
open Calendar (Day Moment)

namespace Scope

def lookup? (scope : Scope) (name : String) : Option Value :=
  scope.findSome? fun layer => layer.lookup name

end Scope

/- What the host language adds to the attributes of a value: methods, and whatever else it can make
of the value. -/
abbrev Members := (v : Value) → String → Option (Subtype v.Made)

namespace Value

/- The attributes of a value that are data. -/

def intFields (n : Int) : Layer :=
  [("real", int n), ("imag", int 0), ("numerator", int n), ("denominator", int 1)]

def dayFields (d : Day) : Layer :=
  [("year", int d.year), ("month", int d.month), ("day", int d.day)]

def span (written shown : String) : Value :=
  foreign ⟨"datetime.timedelta", written, "datetime.timedelta(" ++ shown ++ ")", false⟩

def zone (offset : Int) : Value :=
  let name := if offset = 0 then "UTC" else "UTC" ++ String.ofList (Moment.offsetText offset)
  foreign ⟨"datetime.timezone", name, Calendar.shownZone offset, false⟩

def momentFields (m : Moment) : Layer :=
  dayFields m.day ++
    [("hour", int m.hour), ("minute", int m.minute), ("second", int m.second),
     ("microsecond", int m.micro), ("fold", int 0), ("tzinfo", (m.offset.map zone).getD null),
     ("min", moment ⟨⟨1, 1, 1⟩, 0, 0, 0, 0, none⟩),
     ("max", moment ⟨⟨9999, 12, 31⟩, 23, 59, 59, 999999, none⟩),
     ("resolution", span "0:00:00.000001" "microseconds=1")]

def texts (ss : List String) : Value := tuple (ss.map text)

def nodeFields (n : Node Value) : Layer :=
  [("lineno", int n.pos.line), ("col_offset", int n.pos.column)] ++
    match n with
    | .text _ content => [("content", text content)]
    | .lookup _ path escape filters =>
        [("path", text path), ("escape", bool escape), ("filters", tuple (filters.map stage))]
    | .call _ name args escape filters =>
        [("name", text name), ("args", texts args), ("escape", bool escape),
         ("filters", tuple (filters.map stage))]
    | .cond _ condition children =>
        [("condition", text condition), ("children", tuple (children.map node))]
    | .each _ target binder children =>
        [("target", text target), ("alias", text binder), ("children", tuple (children.map node))]
    | .component _ name ps children =>
        [("name", text name), ("props", props ps), ("children", tuple (children.map node))]
    | .embed _ name ps =>
        [("name", text name), ("props", props (ps.map fun (k, token) => (k, text token)))]
    | .layout _ ps children =>
        [("props", props ps), ("children", tuple (children.map node)),
         ("name", text (layoutName ps))]
    | .diagnostic _ code message source =>
        [("code", text code), ("message", text message), ("source", text source)]

def fields : Value → Layer
  | bool b => intFields (if b then 1 else 0)
  | int n => intFields n
  | float x => [("real", float x), ("imag", float 0.0)]
  | nan id => [("real", nan id), ("imag", float 0.0)]
  | day d =>
      dayFields d ++
        [("min", day ⟨1, 1, 1⟩), ("max", day ⟨9999, 12, 31⟩),
         ("resolution", span "1 day, 0:00:00" "days=1")]
  | moment m => momentFields m
  | object _ fields _ => fields
  | fragment _ nodes scope => [("nodes", tuple (nodes.map node)), ("context", layers scope)]
  | node n => nodeFields n
  | stage f => [("name", text f.name), ("args", texts f.args)]
  | null | undefined | text _ | markup _ | bytes _ | list _ | tuple _ | map _ | function .. |
    foreign _ | layers _ | props _ => []

def attribute? (members : Members) (v : Value) (key : String) : Option Value :=
  (v.fields.lookup key).or ((members v key).map Subtype.val)

/- The item at an index, which counts from the end where it is negative. -/
def itemAt (items : List Value) (index : Int) : Value :=
  let i := if index < 0 then index + items.length else index
  if i < 0 then undefined else (items[i.toNat]?).getD undefined

def itemNamed (items : List Value) (key : String) : Value :=
  if key = "length" then int items.length
  else match Decimal.readInt key.toList with
    | .ok i => itemAt items i
    | .error _ => undefined

/-- One step of a path. Attributes whose names begin with an underscore are not found. -/
def segment (members : Members) (v : Value) (key : String) : Value :=
  match v.entries?, v.items? with
  | some es, _ => (lookup? (text key) es).getD undefined
  | none, some xs => itemNamed xs key
  | none, none => match v with
    | null | undefined => undefined
    | v => if key.startsWith "_" then undefined else (v.attribute? members key).getD undefined

def along (members : Members) (v : Value) (keys : List String) : Value :=
  keys.foldl (segment members) v

def resolve (members : Members) (scope : Scope) (path : String) : Value :=
  let path := trim path.toList
  if path.isEmpty then undefined
  else match Scope.lookup? scope (String.ofList path) with
    | some v => v
    | none =>
        let (head, rest) := cutChar '.' path
        let v := (Scope.lookup? scope (String.ofList head)).getD undefined
        match rest with
        | none | some [] => v
        | some rest => v.along members ((splitOnChar '.' rest).map String.ofList)

/- The value at a path inside a value, null where there is none. -/
def field (members : Members) (item : Value) (path : String) : Value :=
  match resolve members [[("item", item)]] ("item." ++ path) with
  | undefined => null
  | v => v

end Value
end Medley
