import Medley.Html
import Medley.Text.Blank
import Medley.Text.Digest
import Medley.Text.Letters
import Medley.Text.Percent
import Medley.Text.Word
import Medley.Value.Number

/-!
Helpers for text. They work on the text that a value is put out as, and what they change is
plain text; safe text that they hand on as it is stays safe.
-/
namespace Medley.Helper
open Text

def displayed (v : Value) : Value :=
  match v with
  | .markup s => .markup s
  | v => .text v.display

def stringify (v : Value) : Except Fault Value := v.output.map fun _ => displayed v

def mapText (f : List Char → List Char) (v : Value) : Except Fault Value :=
  v.output.map fun s => .text (String.ofList (f s.toList))

/-- Every word begins with a capital. A word begins at a word character and ends at a blank. -/
def titleFrom (word : Option (List Char)) : List Char → List Char
  | [] => match word with
    | some w => capitalize w.reverse
    | none => []
  | c :: rest => match word with
    | some w =>
        if isBlank c then capitalize w.reverse ++ c :: titleFrom none rest
        else titleFrom (some (c :: w)) rest
    | none => if isWord c then titleFrom (some [c]) rest else c :: titleFrom none rest

def titleText (s : List Char) : List Char := titleFrom none s

def inSlug (c : Char) : Bool := ('a' ≤ c && c ≤ 'z') || isAsciiDigit c

/- `gap` says that a dash is due before the next character of the slug, and `any` that there is one
before it. -/
def slugFrom (any gap : Bool) : List Char → List Char
  | [] => []
  | c :: rest =>
      if inSlug c then
        if gap && any then '-' :: c :: slugFrom true false rest else c :: slugFrom true false rest
      else slugFrom any true rest

def slug (s : List Char) : List Char := slugFrom false false (lower s)

/- The first `n` characters; a negative number counts from the end. -/
def keep (n : Int) (s : List Char) : List Char :=
  if n < 0 then s.take (n + s.length).toNat else s.take n.toNat

/- Text longer than the limit is cut and the ending added; a safe ending makes it safe. -/
def truncate (v length ending : Value) : Except Fault Value := do
  let s := (← v.output).toList
  let limit ← length.toWhole
  if limit < s.length then
    let kept := String.ofList (keep limit s)
    match ending with
    | .markup e => return .markup (Html.escapeText kept ++ e)
    | e => return .text (kept ++ (← e.output))
  else return displayed v

def replace (v search new : Value) : Except Fault Value := do
  let s ← v.output
  let old ← search.output
  let other ← new.output
  return .text (String.ofList (Text.replace old.toList other.toList s.toList))

def urlEncode (v : Value) : Except Fault Value :=
  match v with
  | .markup "" => .ok (.markup "")
  | v => mapText Percent.encode v

def urlDecode (v : Value) : Except Fault Value :=
  if v.display.toList.contains '%' then mapText Percent.decode v else stringify v

/- Escaped now, so that it is safe. -/
def escape (v : Value) : Except Fault Value :=
  match v with
  | .markup s => .ok (.markup s)
  | v => v.output.map fun s => .markup (Html.escapeText s)

def unescape (v : Value) : Except Fault Value :=
  v.output.map fun s => .text (Html.unescapeText s)

def base64 (v : Value) : Except Fault Value :=
  mapText (fun s => Base64.encode (Encoding.Utf8.encode s)) v

def digest (v : Value) : Except Fault Value :=
  mapText (fun s => Digest.hexadecimal (Encoding.Utf8.encode s)) v

end Medley.Helper
