import Medley.Template.Kind
import Medley.Template.Read

/-!
Templates kept after they were read, by kind and key, with a count of how often one was found.
-/
namespace Medley

structure CacheKey where
  kind : Kind
  key : String
  deriving DecidableEq, Repr

structure Cache where
  entries : List (CacheKey × Template) := []
  hits : Nat := 0
  misses : Nat := 0

namespace Cache

def find? (c : Cache) (k : CacheKey) : Option Template := c.entries.lookup k

def has (c : Cache) (k : CacheKey) : Bool := (c.find? k).isSome

def size (c : Cache) : Nat := c.entries.length

def get (c : Cache) (k : CacheKey) : Option Template × Cache :=
  match c.find? k with
  | some t => (some t, { c with hits := c.hits + 1 })
  | none => (none, { c with misses := c.misses + 1 })

def putEntry (entries : List (CacheKey × Template)) (k : CacheKey) (t : Template) :
    List (CacheKey × Template) :=
  match entries with
  | [] => [(k, t)]
  | (k', t') :: rest => if k' = k then (k, t) :: rest else (k', t') :: putEntry rest k t

def put (c : Cache) (k : CacheKey) (t : Template) : Cache :=
  { c with entries := putEntry c.entries k t }

/-- Drops the templates; the counts go on. -/
def clear (c : Cache) : Cache := { c with entries := [] }

end Cache
end Medley
