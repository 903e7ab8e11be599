import Medley.Value.Equality

/-!
How values are written. `written` is the text of a value on its own; `shown` is the form inside
lists, maps and messages, where text stands in quotes. `display` is what a template puts out.
-/
namespace Medley
open Text (quoted quotedBytes)

def shownText (s : String) : String := String.ofList (quoted s.toList)

def shownBool (b : Bool) : String := if b then "True" else "False"

def shownInt (n : Int) : String := String.ofList (Decimal.intText n)

def shownFloat (x : Float) : String := String.ofList (Decimal.floatText x)

/- Items in brackets, as a tuple shows them: a single one has a comma after it. -/
def shownTuple : List String → String
  | [x] => "(" ++ x ++ ",)"
  | xs => "(" ++ String.intercalate ", " xs ++ ")"

def shownMap (entries : List (String × String)) : String :=
  "\x7b" ++ String.intercalate ", " (entries.map fun (k, v) => k ++ ": " ++ v) ++ "\x7d"

def shownRecord (name : String) (fields : List (String × String)) : String :=
  name ++ "(" ++ String.intercalate ", " (fields.map fun (k, v) => k ++ "=" ++ v) ++ ")"

def shownObject (fields : List (String × String)) : String :=
  "Obj(" ++ String.intercalate "," (fields.map fun (k, v) => k ++ "=" ++ v) ++ ")"

namespace Calendar

def Day.shown (d : Day) : String :=
  s!"datetime.date({d.year}, {d.month}, {d.day})"

/- A stretch of time by days, seconds and microseconds, those that are zero left out. -/
def shownDelta (micros : Int) : String :=
  let part (name : String) (n : Int) : List (String × String) :=
    if n = 0 then [] else [(name, shownInt n)]
  let parts :=
    part "days" (micros.fdiv microsPerDay) ++
    part "seconds" ((micros.fmod microsPerDay).fdiv 1000000) ++
    part "microseconds" (micros.fmod 1000000)
  if parts.isEmpty then "datetime.timedelta(0)" else shownRecord "datetime.timedelta" parts

def shownZone (offset : Int) : String :=
  if offset = 0 then "datetime.timezone.utc"
  else "datetime.timezone(" ++ shownDelta offset ++ ")"

def Moment.shown (m : Moment) : String :=
  let always := [m.day.year, m.day.month, m.day.day, m.hour, m.minute]
  let rest := if m.micro ≠ 0 then [m.second, m.micro] else if m.second ≠ 0 then [m.second] else []
  let zone := match m.offset with
    | none => []
    | some offset => ["tzinfo=" ++ shownZone offset]
  "datetime.datetime(" ++
    String.intercalate ", " ((always ++ rest).map (fun n => s!"{n}") ++ zone) ++ ")"

end Calendar

def shownPosition (p : Position) : List (String × String) :=
  [("lineno", shownInt p.line), ("col_offset", shownInt p.column)]

def FilterCall.shown (f : FilterCall) : String :=
  shownRecord "FilterCall" [("name", shownText f.name), ("args", shownTuple (f.args.map shownText))]

def shownFilters (fs : List FilterCall) : String := shownTuple (fs.map FilterCall.shown)

def shownProps (props : List (String × String)) : String :=
  "mappingproxy(" ++ shownMap (props.map fun (k, v) => (shownText k, v)) ++ ")"

def shownLayers (layers : List String) : String :=
  "ChainMap(" ++ String.intercalate ", " layers ++ ")"

namespace Value

mutual

def written : Value → String
  | text s | markup s => s
  | undefined => ""
  | day d => String.ofList d.text
  | moment m => String.ofList (m.text ' ')
  | null => "None"
  | bool b => shownBool b
  | int n => shownInt n
  | float x => shownFloat x
  | nan _ => shownFloat Decimal.notANumber
  | bytes bs => String.ofList (quotedBytes bs)
  | list xs => "[" ++ String.intercalate ", " (shownItems xs) ++ "]"
  | tuple xs => shownTuple (shownItems xs)
  | map es => shownMap (shownEntries es)
  | object _ fields _ => shownObject (writtenFields fields)
  | function _ s => s
  | foreign f => f.written
  | fragment _ nodes scope =>
      shownRecord "Fragment"
        [("nodes", shownTuple (shownNodes nodes)), ("context", shownLayers (shownScope scope))]
  | layers scope => shownLayers (shownScope scope)
  | node n => shownNode n
  | props ps => shownProps (shownFields ps)
  | stage f => f.shown

def shown : Value → String
  | text s => shownText s
  | markup s => markupShown s
  | undefined => "UNDEFINED"
  | day d => d.shown
  | moment m => m.shown
  | null => "None"
  | bool b => shownBool b
  | int n => shownInt n
  | float x => shownFloat x
  | nan _ => shownFloat Decimal.notANumber
  | bytes bs => String.ofList (quotedBytes bs)
  | list xs => "[" ++ String.intercalate ", " (shownItems xs) ++ "]"
  | tuple xs => shownTuple (shownItems xs)
  | map es => shownMap (shownEntries es)
  | object _ fields _ => shownObject (writtenFields fields)
  | function _ s => s
  | foreign f => f.shown
  | fragment _ nodes scope =>
      shownRecord "Fragment"
        [("nodes", shownTuple (shownNodes nodes)), ("context", shownLayers (shownScope scope))]
  | layers scope => shownLayers (shownScope scope)
  | node n => shownNode n
  | props ps => shownProps (shownFields ps)
  | stage f => f.shown

def shownItems : List Value → List String
  | [] => []
  | x :: xs => shown x :: shownItems xs

def shownEntries : List (Value × Value) → List (String × String)
  | [] => []
  | (k, v) :: es => (shown k, shown v) :: shownEntries es

def writtenFields : List (String × Value) → List (String × String)
  | [] => []
  | (k, v) :: fs => (k, written v) :: writtenFields fs

def shownFields : List (String × Value) → List (String × String)
  | [] => []
  | (k, v) :: fs => (k, shown v) :: shownFields fs

def shownScope : List (List (String × Value)) → List String
  | [] => []
  | layer :: rest =>
      shownMap ((shownFields layer).map fun (k, v) => (shownText k, v)) :: shownScope rest

def shownNode : Node Value → String
  | .text p s => shownRecord "Text" (shownPosition p ++ [("content", shownText s)])
  | .lookup p path escape filters =>
      shownRecord "Variable" (shownPosition p ++
        [("path", shownText path), ("escape", shownBool escape), ("filters", shownFilters filters)])
  | .call p name args escape filters =>
      shownRecord "Helper" (shownPosition p ++
        [("name", shownText name), ("args", shownTuple (args.map shownText)),
         ("escape", shownBool escape), ("filters", shownFilters filters)])
  | .cond p condition ns =>
      shownRecord "IfBlock" (shownPosition p ++
        [("condition", shownText condition), ("children", shownTuple (shownNodes ns))])
  | .each p target binder ns =>
      shownRecord "EachBlock" (shownPosition p ++
        [("target", shownText target), ("alias", shownText binder),
         ("children", shownTuple (shownNodes ns))])
  | .component p name ps ns =>
      shownRecord "Component" (shownPosition p ++
        [("name", shownText name), ("props", shownProps (shownFields ps)),
         ("children", shownTuple (shownNodes ns))])
  | .embed p name ps =>
      shownRecord "Partial" (shownPosition p ++
        [("name", shownText name), ("props", shownProps (ps.map fun (k, v) => (k, shownText v)))])
  | .layout p ps ns =>
      shownRecord "Layout" (shownPosition p ++
        [("props", shownProps (shownFields ps)), ("children", shownTuple (shownNodes ns))])
  | .diagnostic p code message source =>
      shownRecord "Diagnostic" (shownPosition p ++
        [("code", shownText code), ("message", shownText message), ("source", shownText source)])

def shownNodes : List (Node Value) → List String
  | [] => []
  | n :: ns => shownNode n :: shownNodes ns

end

def layoutName (ps : List (String × Value)) : String := ((ps.lookup "layout").map written).getD ""

/-- A float without a fraction is displayed as an integer. -/
def displayFloat (x : Float) : String :=
  match Decimal.Parts.ofFloat x with
  | .finite negative b =>
      if b.isWhole then shownInt (Decimal.signed negative b.whole) else shownFloat x
  | _ => shownFloat x

mutual

/- The output text of a value, before escaping: nothing for null and undefined, and the items
of a sequence separated by commas. -/
def display : Value → String
  | null | undefined => ""
  | bool b => if b then "true" else "false"
  | text s | markup s => s
  | float x => displayFloat x
  | list xs | tuple xs => String.intercalate "," (displayItems xs)
  | v@(int _) | v@(nan _) | v@(bytes _) | v@(map _) | v@(day _) | v@(moment _) | v@(object ..) |
    v@(function ..) | v@(foreign _) | v@(fragment ..) | v@(layers _) | v@(node _) | v@(props _) |
    v@(stage _) => v.written

def displayItems : List Value → List String
  | [] => []
  | x :: xs => display x :: displayItems xs

end

mutual

/- An integer may be too long to be written, wherever it stands in a value. -/
def isWritable : Value → Bool
  | int n => Decimal.digitCount n.natAbs ≤ Decimal.digitLimit
  | list xs | tuple xs => itemsWritable xs
  | map es => entriesWritable es
  | object _ fields _ => layerWritable fields
  | fragment _ nodes scope => nodesWritable nodes && scopeWritable scope
  | layers scope => scopeWritable scope
  | node n => nodeWritable n
  | props ps => layerWritable ps
  | null | undefined | bool _ | float _ | nan _ | text _ | markup _ | bytes _ | day _ | moment _ |
    function .. | foreign _ | stage _ => true

def itemsWritable : List Value → Bool
  | [] => true
  | x :: xs => isWritable x && itemsWritable xs

def entriesWritable : List (Value × Value) → Bool
  | [] => true
  | (k, v) :: es => isWritable k && isWritable v && entriesWritable es

def layerWritable : List (String × Value) → Bool
  | [] => true
  | (_, v) :: fs => isWritable v && layerWritable fs

def scopeWritable : List (List (String × Value)) → Bool
  | [] => true
  | layer :: rest => layerWritable layer && scopeWritable rest

def nodeWritable : Node Value → Bool
  | .cond _ _ ns | .each _ _ _ ns => nodesWritable ns
  | .component _ _ ps ns | .layout _ ps ns => layerWritable ps && nodesWritable ns
  | .text .. | .lookup .. | .call .. | .embed .. | .diagnostic .. => true

def nodesWritable : List (Node Value) → Bool
  | [] => true
  | n :: ns => nodeWritable n && nodesWritable ns

end

def output (v : Value) : Except Fault String :=
  if v.isWritable then .ok v.display else .error .unwritableInteger

def writing (v : Value) : Except Fault String :=
  if v.isWritable then .ok v.written else .error .unwritableInteger

def typeWord : Value → String
  | undefined => "undefined"
  | bool _ => "boolean"
  | int _ | float _ | nan _ => "number"
  | text _ | markup _ => "string"
  | function .. => "function"
  | foreign f => if f.callable then "function" else "object"
  | _ => "object"

def length : Value → Nat
  | text s | markup s => s.length
  | list xs | tuple xs => xs.length
  | v => (v.entries?.map List.length).getD 0

end Value
end Medley
