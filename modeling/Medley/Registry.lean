import Medley.Engine

/-!
The helpers and the filters of an engine as tables that a host program changes: only functions
are let in, and several of them all at once or not at all.
-/
namespace Medley

inductive Registry where
  | helpers
  | filters
  deriving DecidableEq, Repr

namespace Registry

def name : Registry → String
  | helpers => "helpers"
  | filters => "filters"

def ofName? : String → Option Registry
  | "helpers" => some helpers
  | "filters" => some filters
  | _ => none

def function (name : String) (v : Value) : Except Fault Function :=
  match v with
  | .function f _ => .ok (.host f)
  | .foreign ⟨_, f, _, true⟩ => .ok (.host f)
  | v => .error (.notCallable (shownText name) v.shortKind)

end Registry

namespace Engine

def table (e : Engine) : Registry → List (String × Function)
  | .helpers => e.helpers
  | .filters => e.filters

def withTable (e : Engine) (r : Registry) (entries : List (String × Function)) : Engine :=
  match r with
  | .helpers => { e with helpers := entries }
  | .filters => { e with filters := entries }

def function (e : Engine) (r : Registry) (name : String) : Except Fault Function :=
  match (e.table r).lookup name with
  | some f => .ok f
  | none => .error (.noSuchKey (shownText name))

def hasFunction (e : Engine) (r : Registry) (name : String) : Bool :=
  ((e.table r).lookup name).isSome

def functionNames (e : Engine) (r : Registry) : List String := (e.table r).map Prod.fst

def registerFunctions (e : Engine) (r : Registry) (entries : Layer) : Except Fault Engine := do
  let given ← entries.mapM fun (name, v) => return (name, ← Registry.function name v)
  return e.withTable r (mergeFunctions (e.table r) given)

def registerFunction (e : Engine) (r : Registry) (name : String) (v : Value) :
    Except Fault Engine :=
  e.registerFunctions r [(name, v)]

def dropFunction (e : Engine) (r : Registry) (name : String) : Except Fault Engine := do
  let _ ← e.function r name
  return e.withTable r ((e.table r).filter fun f => f.1 != name)

def shownTable (e : Engine) (r : Registry) : String :=
  s!"<FunctionRegistry {r.name}: {(e.table r).length} entries>"

end Engine
end Medley
