import Medley.Value.Number

/-!
When two values are equal, and when one comes before another. Numbers are equal as numbers,
safe text equals plain text, maps of every sort are equal by their entries, whatever the order, and
objects of the host program equal only themselves. A float that is no number is the same as itself
where it is an item, an entry or a key, though it is equal to nothing.
-/
namespace Medley
open Calendar (Moment)

def Calendar.Moment.same (a b : Moment) : Bool :=
  match a.offset, b.offset with
  | none, none => a.clockMicros == b.clockMicros
  | some _, some _ => a.utcMicros == b.utcMicros
  | _, _ => false

namespace Value

def sameScalar (a b : Value) : Bool :=
  match a, b with
  | null, null | undefined, undefined => true
  | text s, text t | text s, markup t | markup s, text t | markup s, markup t => s == t
  | bytes a, bytes b => a == b
  | day a, day b => a == b
  | moment a, moment b => a.same b
  | object a .., object b .. => a == b
  | nan a, nan b => a == b
  | function a _, function b _ => a == b
  | foreign f, foreign g => f == g
  | stage f, stage g => f == g
  | _, _ => match a.number?, b.number? with
    | some m, some n => m.compare? n == some .eq
    | _, _ => false

mutual

def same : Value → Value → Bool
  | list xs, list ys | tuple xs, tuple ys => sameItems xs ys
  | map xs, b => match b.entries? with
    | some ys => xs.length == ys.length && sameEntries xs ys
    | none => false
  | layers xs, b => match b.entries? with
    | some ys => (flatLayer xs).length == ys.length && sameScope [] xs ys
    | none => false
  | props xs, b => match b.entries? with
    | some ys => xs.length == ys.length && sameProps [] xs ys
    | none => false
  | fragment _ ns xs, fragment _ ms ys =>
      sameNodes ns ms && (flatLayer xs).length == (flatLayer ys).length &&
        sameScope [] xs (named (flatLayer ys))
  | node n, node m => sameNode n m
  | a, b => sameScalar a b

def sameItems : List Value → List Value → Bool
  | [], [] => true
  | x :: xs, y :: ys => same x y && sameItems xs ys
  | _, _ => false

/- Entries are compared in any order: each has an equal one on the other side. -/
def sameEntries : List (Value × Value) → List (Value × Value) → Bool
  | [], _ => true
  | (k, v) :: xs, ys => ys.any (fun e => same k e.1 && same v e.2) && sameEntries xs ys

def sameProps (hidden : List String) : List (String × Value) → List (Value × Value) → Bool
  | [], _ => true
  | (k, v) :: xs, ys =>
      (hidden.contains k || ys.any fun e => e.1.string? == some k && same v e.2) &&
        sameProps hidden xs ys

def sameScope (hidden : List String) : List (List (String × Value)) → List (Value × Value) → Bool
  | [], _ => true
  | x :: xs, ys => sameProps hidden x ys && sameScope (hidden ++ x.map Prod.fst) xs ys

def sameNode : Node Value → Node Value → Bool
  | .text p s, .text q t => p == q && s == t
  | .lookup p a e f, .lookup q b e' f' => p == q && a == b && e == e' && f == f'
  | .call p n a e f, .call q m b e' f' => p == q && n == m && a == b && e == e' && f == f'
  | .cond p c ns, .cond q d ms => p == q && c == d && sameNodes ns ms
  | .each p t a ns, .each q u b ms => p == q && t == u && a == b && sameNodes ns ms
  | .component p n xs ns, .component q m ys ms =>
      p == q && n == m && xs.length == ys.length && sameProps [] xs (named ys) && sameNodes ns ms
  | .embed p n xs, .embed q m ys => p == q && n == m && xs.isPerm ys
  | .layout p xs ns, .layout q ys ms =>
      p == q && xs.length == ys.length && sameProps [] xs (named ys) && sameNodes ns ms
  | .diagnostic p c m s, .diagnostic q d n t => p == q && c == d && m == n && s == t
  | _, _ => false

def sameNodes : List (Node Value) → List (Node Value) → Bool
  | [], [] => true
  | n :: ns, m :: ms => sameNode n m && sameNodes ns ms
  | _, _ => false

end

def equal (a b : Value) : Bool :=
  match a with
  | nan _ => false
  | a => a.same b

def notOrdered (a b : Value) : Fault := .notOrdered a.kind b.kind

def beforeScalar (a b : Value) : Except Fault Bool :=
  match a, b with
  | text s, text t | text s, markup t | markup s, text t | markup s, markup t => .ok (s < t)
  | bytes a, bytes b => .ok (decide (a < b))
  | day a, day b => .ok (decide (a.number < b.number))
  | moment a, moment b =>
      if a.offset.isSome = b.offset.isSome then .ok (decide (a.utcMicros < b.utcMicros))
      else .error .zonedAgainstUnzoned
  | moment _, day _ | day _, moment _ => .error .momentAgainstDay
  | _, _ => match a.number?, b.number? with
    | some m, some n => .ok (m.compare? n == some .lt)
    | _, _ => .error (notOrdered a b)

mutual

/-- Sequences of one kind are ordered by their first difference, then by length. -/
def before : Value → Value → Except Fault Bool
  | list xs, list ys | tuple xs, tuple ys => beforeItems xs ys
  | a, b => beforeScalar a b

def beforeItems : List Value → List Value → Except Fault Bool
  | [], ys => .ok !ys.isEmpty
  | _ :: _, [] => .ok false
  | x :: xs, y :: ys => if same x y then beforeItems xs ys else before x y

end

mutual

def hashable : Value → Except Fault Unit
  | v@(list _) | v@(map _) | v@(layers _) | v@(props _) => .error (.unhashable v.kind)
  | fragment _ nodes _ => do
      nodesHashable nodes
      throw (.unhashable "ChainMap")
  | node n => nodeHashable n
  | tuple xs => itemsHashable xs
  | _ => .ok ()

def itemsHashable : List Value → Except Fault Unit
  | [] => .ok ()
  | x :: xs => do
      hashable x
      itemsHashable xs

def nodeHashable : Node Value → Except Fault Unit
  | .component .. | .embed .. | .layout .. => .error (.unhashable "mappingproxy")
  | .cond _ _ children | .each _ _ _ children => nodesHashable children
  | .text .. | .lookup .. | .call .. | .diagnostic .. => .ok ()

def nodesHashable : List (Node Value) → Except Fault Unit
  | [] => .ok ()
  | n :: ns => do
      nodeHashable n
      nodesHashable ns

end

def lookup? {α : Type} (key : Value) : List (Value × α) → Option α
  | [] => none
  | (k, v) :: rest => if same k key then some v else lookup? key rest

/- Sets a key in place, or adds it at the end. -/
def setEntry {α : Type} (entries : List (Value × α)) (key : Value) (value : α) :
    List (Value × α) :=
  match entries with
  | [] => [(key, value)]
  | (k, v) :: rest => if same k key then (k, value) :: rest else (k, v) :: setEntry rest key value

def ofEntries (entries : List (Value × Value)) : Value :=
  map (entries.foldl (fun acc (k, v) => setEntry acc k v) [])

end Value
end Medley
