/-!
How alike two texts are: twice the characters in matching blocks by the total length. The
longest block common to both is taken first, the earliest of several, and the texts on either
side of it are matched in turn. In a long text, characters that are very frequent start no
block.
-/
namespace Medley.Text.Closeness

/-- A common block: where it begins in either text, and its length. -/
structure Block where
  left : Nat
  right : Nat
  size : Nat
  deriving DecidableEq, Repr

/- The lengths of the common runs that end at a character and at each character of `b`; `above`
holds those for the character before, shifted by one. -/
def runsAt (popular : Char → Bool) (c : Char) : List Char → List Nat → List Nat
  | [], _ => []
  | d :: ds, above =>
      (if c = d && !popular d then above.headD 0 + 1 else 0) ::
        runsAt popular c ds (above.drop 1)

def better (i : Nat) (best : Block) (runs : List Nat) : Block :=
  runs.zipIdx.foldl (fun best (k, j) =>
    if best.size < k then ⟨i + 1 - k, j + 1 - k, k⟩ else best) best

def longestFrom (popular : Char → Bool) (b : List Char) (i : Nat) (above : List Nat)
    (best : Block) : List Char → Block
  | [] => best
  | c :: cs =>
      let runs := runsAt popular c b (0 :: above)
      longestFrom popular b (i + 1) runs (better i best runs) cs

def commonStart : List Char → List Char → Nat
  | a :: as, b :: bs => if a = b then commonStart as bs + 1 else 0
  | _, _ => 0

/- A block with equal characters around it, frequent ones included. -/
def extend (a b : List Char) (x : Block) : Block :=
  let before := commonStart (a.take x.left).reverse (b.take x.right).reverse
  let after := commonStart (a.drop (x.left + x.size)) (b.drop (x.right + x.size))
  ⟨x.left - before, x.right - before, before + x.size + after⟩

def longest (popular : Char → Bool) (a b : List Char) : Block :=
  extend a b (longestFrom popular b 0 [] ⟨0, 0, 0⟩ a)

/- The characters in matching blocks; each block makes the first text shorter. -/
def matchedFrom (popular : Char → Bool) : Nat → List Char → List Char → Nat
  | 0, _, _ => 0
  | fuel + 1, a, b =>
      let x := longest popular a b
      if x.size = 0 then 0
      else
        matchedFrom popular fuel (a.take x.left) (b.take x.right) + x.size +
          matchedFrom popular fuel (a.drop (x.left + x.size)) (b.drop (x.right + x.size))

def isPopularIn (s : List Char) (c : Char) : Bool :=
  200 ≤ s.length && s.length / 100 + 1 < s.count c

def ratio (a b : List Char) : Nat × Nat :=
  (2 * matchedFrom (isPopularIn b) a.length a b, a.length + b.length)

/- The candidate most like `word`, from six tenths on; of several the greatest. -/
def closest? (word : List Char) (candidates : List String) : Option String :=
  let scored := candidates.filterMap fun s =>
    let (n, d) := ratio s.toList word
    if 6 * d ≤ 10 * n then some (n, d, s) else none
  let above (x y : Nat × Nat × String) : Bool :=
    if x.1 * y.2.1 = y.1 * x.2.1 then y.2.2 < x.2.2 else y.1 * x.2.1 < x.1 * y.2.1
  (scored.foldl (fun best x => match best with
    | none => some x
    | some y => if above x y then some x else some y) none).map (·.2.2)

end Medley.Text.Closeness
