import Medley.Diagnostic.Code
import Medley.Value.Number

/-!
Many changes in a row reported as one. While a report is due it can be made at once or dropped;
without a delay every change is reported by itself.
-/
namespace Medley

structure Debouncer where
  delayed : Bool
  pending : Bool := false
  -- the paths that are said to have changed since the last report
  changes : List String := []
  deriving DecidableEq, Repr

namespace Debouncer

/-- A debouncer that waits so many seconds. What is no number is not at most zero. -/
def ofDelay (seconds : Number) : Debouncer :=
  { delayed := !(seconds.compare? (.int 0)).any (· != .gt) }

structure Report where
  changes : Nat
  deriving DecidableEq, Repr

def Report.log (r : Report) : Log :=
  ⟨.debug, s!"Template change burst ({r.changes} paths): clearing cache"⟩

def fire (d : Debouncer) : Debouncer × Option Report :=
  ({ d with pending := false, changes := [] }, some ⟨d.changes.length⟩)

def trigger (d : Debouncer) (path : Option String) : Debouncer × Option Report :=
  let d := { d with changes := d.changes ++ path.toList }
  if d.delayed then ({ d with pending := true }, none) else fire d

def flush (d : Debouncer) : Debouncer × Option Report :=
  if d.pending then fire d else (d, none)

def cancel (d : Debouncer) : Debouncer := { d with pending := false, changes := [] }

end Debouncer
end Medley
