import Medley.Decimal.Written

/-!
A fixed number of places after the point. The exact value is rounded, a half to the even
neighbour; digits before the point may be grouped in threes.
-/
namespace Medley.Decimal

/-- n / d to the nearest integer, a half to the even one. -/
def divHalfEven (n d : Nat) : Nat :=
  let q := n / d
  match compare (2 * (n % d)) d with
  | .lt => q
  | .gt => q + 1
  | .eq => if q % 2 = 0 then q else q + 1

/- Three digits from the right at a time; `ds` holds the last digit first. -/
def groupFrom : List Char → List Char
  | a :: b :: c :: d :: rest => a :: b :: c :: ',' :: groupFrom (d :: rest)
  | ds => ds

def grouped (ds : List Char) : List Char := (groupFrom ds.reverse).reverse

def fixedText (group : Bool) (places n : Nat) : List Char :=
  let ds := natText n
  let ds := zeros (places + 1 - ds.length) ++ ds
  let whole := ds.take (ds.length - places)
  (if group then grouped whole else whole) ++
    (if places = 0 then [] else '.' :: ds.drop (ds.length - places))

def Binary.roundPlaces (b : Binary) (places : Nat) : Nat :=
  divHalfEven (b.m * twos b.q * tens places) (twos (-b.q))

def floatFixed (group : Bool) (places : Nat) (x : Float) : List Char :=
  match Parts.ofFloat x with
  | .nan => "nan".toList
  | .infinite negative => signText negative ++ "inf".toList
  | .finite negative b => signText negative ++ fixedText group places (b.roundPlaces places)

end Medley.Decimal
