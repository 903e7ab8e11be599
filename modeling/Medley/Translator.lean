import Medley.Diagnostic.Code
import Medley.Files.Search
import Medley.Html
import Medley.Json.Read
import Medley.Render.Context
import Medley.Value.Sorting

/-!
Translated texts by locale and key. Tables may be nested: the keys on the way are joined by
dots. A text is looked for in the locale asked for, then in the fallback; a key without a text
stands for itself.
-/
namespace Medley

abbrev Table := List (String × String)

namespace Table

def merge (under top : Table) : Table :=
  top.foldl (fun acc (k, v) => setProp acc k v) under

mutual

/- The texts of nested entries, in order; `path` is in front of every key. -/
def flattenEntries (path : String) : List (Value × Value) → Table
  | [] => []
  | (k, v) :: rest => flattenEntry (path ++ k.written) v ++ flattenEntries path rest

def flattenEntry (name : String) : Value → Table
  | .map entries => flattenEntries (name ++ ".") entries
  | v => [(name, v.written)]

end

def ofEntries (entries : List (Value × Value)) : Table := merge [] (flattenEntries "" entries)

def entriesOf (v : Value) : Except Fault (List (Value × Value)) :=
  match v.entries? with
  | some entries => .ok entries
  | none => .error (.noEntries v.kind)

end Table

/-- Tables by locale. A locale that is no text can be given, but it is never asked for. -/
structure Translator where
  tables : List (Value × Table) := []
  locale : String := "en"
  fallback : Option String := none

namespace Translator

def table (t : Translator) (locale : Value) : Table := (Value.lookup? locale t.tables).getD []

def locales (t : Translator) : Except Fault (List Value) :=
  Sorting.sort Value.before (t.tables.map Prod.fst)

/- Puts the texts of a map over those of a locale. An integer too long to be written is no
text. -/
def add (t : Translator) (locale texts : Value) : Except Fault Translator := do
  let entries ← Table.entriesOf texts
  if Value.entriesWritable entries then
    let table := (t.table locale).merge (Table.flattenEntries "" entries)
    return { t with tables := Value.setEntry t.tables locale table }
  else throw .unwritableInteger

def addAll (t : Translator) (given : Value) : Except Fault Translator := do
  if given.isGiven then
    (← Table.entriesOf given).foldlM (fun t (locale, texts) => t.add locale texts) t
  else return t

/- The locale asked for comes before that of the render, and that before the translator's own. -/
def active (t : Translator) (asked current : Value) : Except Fault String :=
  if asked.isGiven then asked.writing
  else if current.isGiven then current.writing
  else .ok t.locale

/- An empty text counts as none. -/
def text? (t : Translator) (locale key : String) : Option String :=
  ((t.table (.text locale)).lookup key).filter fun s => !s.isEmpty

def found? (t : Translator) (key locale : String) : Option String :=
  match t.text? locale key with
  | some s => some s
  | none => match t.fallback with
    | some other => if other.isEmpty || other = locale then none else t.text? other key
    | none => none

def translate (t : Translator) (key locale : String) : String := (t.found? key locale).getD key

def countNumber : Value → Except Fault Number
  | v@.null | v@.undefined => .error (.notNumeric v.kind)
  | v@(.text "") | v@(.markup "") => .error (.notNumber v.shown)
  | v => v.toNumber

/- The integer that a whole count is, which is read again where it is text. -/
def countWhole : Value → Except Fault Int
  | v@(.text s) | v@(.markup s) => match Decimal.readInt s.toList with
    | .ok n => .ok n
    | .error (.tooLong digits) => .error (.longInteger digits)
    | .error .malformed => .error (.malformedInteger v.shown)
  | v => v.toWhole

def countText (count : Value) : Except Fault String := do
  let n := Number.float (← (← countNumber count).toFloat)
  if n.isWhole then return shownInt (← countWhole count) else return count.written

def countMark : String := "\x7bcount\x7d"

def translatePlural (t : Translator) (key : String) (count asked current : Value) :
    Except Fault String := do
  let shown ← countText count
  let locale ← t.active asked current
  let text := t.translate (if count.equal (.int 1) then key else key ++ "_plural") locale
  return String.ofList (Text.replace countMark.toList shown.toList text.toList)

def filesIn (tree : FileTree) (directory : String) :
    Except Fault (List (Pathname × Option Encoding.Bytes)) := do
  let base := Pathname.ofText directory
  match ← tree.place? base with
  | some (.directory here) =>
      let names := (tree.entries here).filter fun name => name.endsWith ".json"
      return (names.mergeSort fun a b => a ≤ b).map fun name =>
        (base.join (.ofText name), tree.get? (here ++ [name]))
  | _ => return []

def readFile (encoding : String) (path : Pathname) (bytes : Option Encoding.Bytes) :
    Except Fault (String × Table) := do
  let bytes ← match bytes with
    | some bytes => .ok bytes
    | none => .error (.operatingSystem 21 "Is a directory" path.text)
  let source := (← FileTree.readText encoding bytes).toList
  match Json.read source with
  | .error refusal => .error (refusal.fault source)
  | .ok (.map entries) => return (path.stem, Table.ofEntries entries)
  | .ok _ => .error (.notJsonObject path.text)

def readDirectory (tree : FileTree) (directory encoding : String) :
    Except Fault (List (Value × Table) × List Log) := do
  let files ← filesIn tree directory
  let read ← files.mapM fun (path, bytes) => do
    let (name, table) ← readFile encoding path bytes
    return (path, name, table)
  let tables := read.foldl (fun acc (_, name, table) => Value.setEntry acc (.text name) table) []
  let logs := read.map fun (path, name, table) =>
    ⟨.debug, s!"Loaded {table.length} translations for {shownText name} from {path.text}"⟩
  return (tables, logs)

/- Texts given in place go over those of the files. -/
def load (tree : FileTree) (directory : Option String) (encoding : String)
    (given : Value) (locale : String) (fallback : Option String) :
    Except Fault (Translator × List Log) := do
  let (tables, logs) ← match directory with
    | some d => readDirectory tree d encoding
    | none => .ok ([], [])
  return (← Translator.addAll ⟨tables, locale, fallback⟩ given, logs)

end Translator
end Medley
