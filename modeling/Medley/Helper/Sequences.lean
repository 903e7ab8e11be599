import Medley.Scope
import Medley.Value.Sorting
import Medley.Value.Written

/-!
Helpers for sequences and maps. Most hand on what is no sequence as it is.
-/
namespace Medley.Helper

def onItems (v : Value) (f : List Value → Value) : Value :=
  match v.items? with
  | some xs => f xs
  | none => v

def first (v : Value) : Value := (v.items?.bind List.head?).getD .null

def last (v : Value) : Value := (v.items?.bind List.getLast?).getD .null

/- An index within a length; a negative one counts from the end. -/
def clamp (length : Nat) (i : Int) : Nat :=
  if i < 0 then (i + length).toNat else min i.toNat length

def sliceList {α : Type} (start : Int) (stop : Option Int) (xs : List α) : List α :=
  let last := match stop with
    | some n => clamp xs.length n
    | none => xs.length
  (xs.take last).drop (clamp xs.length start)

def slice (v start stop : Value) : Except Fault Value := do
  let bounds : Except Fault (Int × Option Int) := do
    let first ← start.toWhole
    let last ← match stop with
      | .null => pure none
      | stop => some <$> stop.toWhole
    return (first, last)
  match v with
  | .list xs | .tuple xs => do
      let (first, last) ← bounds
      return .list (sliceList first last xs)
  | .text s | .markup s => do
      let (first, last) ← bounds
      return .text (String.ofList (sliceList first last s.toList))
  | v => return v

/- The name of a field, which is asked for where there are items that may have it. -/
def fieldName (xs : List Value) (key : Value) : Except Fault String :=
  if xs.isEmpty then .ok "" else key.writing

def sort (members : Members) (v key : Value) : Except Fault Value :=
  match v.items?, key with
  | none, _ => .ok v
  | some xs, .null => do return .list (← Sorting.sort Value.before xs)
  | some xs, key => do
      let name ← fieldName xs key
      let keyed := xs.map fun x => (x.field members name, x)
      let sorted ← Sorting.sort (fun a b => Value.before a.1 b.1) keyed
      return .list (sorted.map Prod.snd)

def reverse (v : Value) : Value :=
  match v with
  | .text s | .markup s => .text (String.ofList s.toList.reverse)
  | v => onItems v fun xs => .list xs.reverse

def join (v separator : Value) : Except Fault Value :=
  match v with
  | .markup s => .ok (.markup s)
  | v => match v.items? with
    | some xs => do
        let between ← separator.output
        return .text (String.intercalate between (← xs.mapM Value.output))
    | none => v.output.map Value.text

def unique (v : Value) : Value :=
  onItems v fun xs =>
    .list (xs.foldl (fun seen x => if seen.any (Value.same · x) then seen else seen ++ [x]) [])

/-- The items with a true field, or with a field equal to the one wanted. -/
def filterBy (members : Members) (v key : Value) (wanted : Option Value) : Except Fault Value :=
  match v.items? with
  | none => .ok v
  | some xs => do
      let name ← fieldName xs key
      return .list <| xs.filter fun x =>
        let found := x.field members name
        match wanted with
        | none => found.truthy
        | some w => found.equal w

def mapBy (members : Members) (v key : Value) : Except Fault Value :=
  match v.items? with
  | none => .ok v
  | some xs => do
      let name ← fieldName xs key
      return .list (xs.map fun x => x.field members name)

def keys (v : Value) : Value := .list ((v.entries?.getD []).map Prod.fst)

def values (v : Value) : Value := .list ((v.entries?.getD []).map Prod.snd)

/- Whether a map has a key, a sequence an item, or anything else an attribute. -/
def has (members : Members) (v key : Value) : Except Fault Bool :=
  match v.entries?, v.items? with
  | some es, _ => do
      key.hashable
      return (Value.lookup? key es).isSome
  | none, some xs => .ok (xs.any (Value.same · key))
  | none, none => match v with
    | .null | .undefined => .ok false
    | v => do return (v.attribute? members (← key.writing)).isSome

end Medley.Helper
