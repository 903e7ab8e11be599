import Medley.Value.Equality

/-!
A stable sort whose comparisons may fail, in a fixed order of comparisons, so that it is
settled which failure is met first: a rising or strictly falling run at the front is taken as
it stands, and each further element is put in place by binary search. Longer lists are cut
into pieces of at least 32 that are sorted so and then merged.
-/
namespace Medley.Sorting

abbrev Before (α : Type) := α → α → Except Fault Bool

variable {α : Type}

/- How far a falling run goes on, after its last element so far. -/
def fallingFrom (lt : Before α) (prev : α) : List α → Except Fault Nat
  | [] => .ok 0
  | x :: xs => do if ← lt x prev then return (← fallingFrom lt x xs) + 1 else return 0

def risingFrom (lt : Before α) (prev : α) : List α → Except Fault Nat
  | [] => .ok 0
  | x :: xs => do if ← lt x prev then return 0 else return (← risingFrom lt x xs) + 1

def takeRun (lt : Before α) : List α → Except Fault (List α × List α)
  | [] => .ok ([], [])
  | [x] => .ok ([x], [])
  | x :: y :: rest => do
      if ← lt y x then
        let n ← fallingFrom lt y rest
        return ((x :: y :: rest.take n).reverse, rest.drop n)
      else
        let n ← risingFrom lt y rest
        return (x :: y :: rest.take n, rest.drop n)

/- Where `pivot` goes between `l` and `r`: after all that are not beyond it. -/
def searchFrom (lt : Before α) (pivot : α) (sorted : Array α) : Nat → Nat → Nat → Except Fault Nat
  | 0, l, _ => .ok l
  | fuel + 1, l, r =>
      if r ≤ l then .ok l
      else
        let p := l + (r - l) / 2
        match sorted[p]? with
        | none => .ok l
        | some x => do
            if ← lt pivot x then searchFrom lt pivot sorted fuel l p
            else searchFrom lt pivot sorted fuel (p + 1) r

def insertAll (lt : Before α) : Array α → List α → Except Fault (Array α)
  | sorted, [] => .ok sorted
  | sorted, x :: xs => do
      let i ← searchFrom lt x sorted (sorted.size + 1) 0 sorted.size
      insertAll lt (sorted.insertIdxIfInBounds i x) xs

def mergeFrom (lt : Before α) : Nat → List α → List α → Except Fault (List α)
  | 0, xs, ys => .ok (xs ++ ys)
  | _ + 1, [], ys => .ok ys
  | _ + 1, xs, [] => .ok xs
  | fuel + 1, x :: xs, y :: ys => do
      if ← lt y x then return y :: (← mergeFrom lt fuel (x :: xs) ys)
      else return x :: (← mergeFrom lt fuel xs (y :: ys))

/-- The least length of a piece. -/
def pieceLength : Nat → Nat → Nat → Nat
  | 0, n, extra => n + extra
  | fuel + 1, n, extra =>
      if n < 64 then n + extra
      else pieceLength fuel (n / 2) (if n % 2 = 1 then 1 else extra)

def sortFrom (lt : Before α) (least : Nat) : Nat → List α → List α → Except Fault (List α)
  | 0, done, _ => .ok done
  | _ + 1, done, [] => .ok done
  | fuel + 1, done, xs => do
      let (run, rest) ← takeRun lt xs
      let more := least - run.length
      let piece ← insertAll lt run.toArray (rest.take more)
      let rest := rest.drop more
      let merged ← mergeFrom lt (done.length + piece.size) done piece.toList
      sortFrom lt least fuel merged rest

def sort (lt : Before α) (xs : List α) : Except Fault (List α) :=
  sortFrom lt (pieceLength xs.length xs.length 0) xs.length [] xs

end Medley.Sorting
