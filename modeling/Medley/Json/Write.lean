import Medley.Value.Written

/-!
Values written as JSON, on one line or with every item on a line of its own. What JSON has no
form for is written as its text. Only text, numbers, booleans and null can be names.
-/
namespace Medley.Json

def escapeChar (c : Char) : List Char :=
  if c = '"' then ['\\', '"']
  else if c = '\\' then ['\\', '\\']
  else if c = '\n' then ['\\', 'n']
  else if c = '\r' then ['\\', 'r']
  else if c = '\t' then ['\\', 't']
  else if c = '\x0C' then ['\\', 'f']
  else if c = '\x08' then ['\\', 'b']
  else if c.toNat < 0x20 then '\\' :: 'u' :: Text.hexFixed false 4 c.toNat
  else [c]

def writeText (s : String) : String :=
  String.ofList ('"' :: s.toList.flatMap escapeChar ++ ['"'])

def writeFloat (x : Float) : String :=
  match Decimal.Parts.ofFloat x with
  | .nan => "NaN"
  | .infinite negative => if negative then "-Infinity" else "Infinity"
  | .finite .. => shownFloat x

def writeBool (b : Bool) : String := if b then "true" else "false"

def writeInt (n : Int) : Except Fault String :=
  if Decimal.digitLimit < Decimal.digitCount n.natAbs then .error .unwritableInteger
  else .ok (shownInt n)

/-- How deep each level is indented; none for all on one line. -/
abbrev Indent := Option Nat

def newline (indent : Indent) (level : Nat) : String :=
  match indent with
  | none => ""
  | some width => "\n" ++ String.ofList (List.replicate (width * level) ' ')

def separator (indent : Indent) (level : Nat) : String :=
  match indent with
  | none => ", "
  | some _ => "," ++ newline indent level

def enclose (indent : Indent) (level : Nat) (opening closing : String) (parts : List String) :
    String :=
  if parts.isEmpty then opening ++ closing
  else
    opening ++ newline indent (level + 1) ++
      String.intercalate (separator indent (level + 1)) parts ++ newline indent level ++ closing

/- The word for the kind of a value that is no name; on one line it is the full one. -/
def unfitKind (indent : Indent) (key : Value) : String :=
  if indent.isSome then key.shortKind else key.kind

def writeName (indent : Indent) : Value → Except Fault String
  | .text s | .markup s => .ok (writeText s)
  | .int n => do return writeText (← writeInt n)
  | .float x => .ok (writeText (writeFloat x))
  | .nan _ => .ok (writeText (writeFloat Decimal.notANumber))
  | .bool b => .ok (writeText (writeBool b))
  | .null => .ok (writeText "null")
  | key => .error (.unfitKey (unfitKind indent key))

mutual

def writeAt (indent : Indent) (level : Nat) : Value → Except Fault String
  | .null => .ok "null"
  | .bool b => .ok (writeBool b)
  | .int n => writeInt n
  | .float x => .ok (writeFloat x)
  | .nan _ => .ok (writeFloat Decimal.notANumber)
  | .text s | .markup s => .ok (writeText s)
  | .list xs | .tuple xs => do
      return enclose indent level "[" "]" (← writeItems indent (level + 1) xs)
  | .map es => do
      return enclose indent level "\x7b" "\x7d" (← writeEntries indent (level + 1) es)
  | v@.undefined | v@(.bytes _) | v@(.day _) | v@(.moment _) | v@(.object ..) |
    v@(.function ..) | v@(.foreign _) | v@(.fragment ..) | v@(.layers _) | v@(.node _) |
    v@(.props _) | v@(.stage _) => do return writeText (← v.writing)

def writeItems (indent : Indent) (level : Nat) : List Value → Except Fault (List String)
  | [] => .ok []
  | v :: vs => do
      let text ← writeAt indent level v
      return text :: (← writeItems indent level vs)

def writeEntries (indent : Indent) (level : Nat) : List (Value × Value) → Except Fault (List String)
  | [] => .ok []
  | (k, v) :: es => do
      let name ← writeName indent k
      let text ← writeAt indent level v
      return (name ++ ": " ++ text) :: (← writeEntries indent level es)

end

/- At the top undefined counts as null. -/
def write (indent : Indent) (v : Value) : Except Fault String :=
  match v with
  | .undefined => writeAt indent 0 .null
  | v => writeAt indent 0 v

end Medley.Json
