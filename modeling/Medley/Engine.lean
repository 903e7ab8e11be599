import Medley.Helper.Apply
import Medley.Loader

/-!
An engine: its loader, the functions and templates that are registered with it, and its
settings. A template is looked for among those registered, then in the cache if there is one,
then with the loader.
-/
namespace Medley

structure Registered where
  embeds : List (String × Template) := []
  components : List (String × Template) := []
  layouts : List (String × Template) := []

namespace Registered

def ofKind (r : Registered) : Kind → List (String × Template)
  | .page => []
  | .embed => r.embeds
  | .component => r.components
  | .layout => r.layouts

def put (r : Registered) (kind : Kind) (name : String) (t : Template) : Registered :=
  match kind with
  | .page => r
  | .embed => { r with embeds := setProp r.embeds name t }
  | .component => { r with components := setProp r.components name t }
  | .layout => { r with layouts := setProp r.layouts name t }

end Registered

structure Engine where
  loader : Loader := .memory {}
  tree : FileTree := {}
  cached : Bool := false
  debug : Bool := false
  maxDepth : Int := 50
  globals : Layer := []
  translator : Translator := {}
  helpers : List (String × Function) := []
  filters : List (String × Function) := []
  registered : Registered := {}

namespace Fault

def filename? : Fault → Option String
  | operatingSystem _ _ filename => some filename
  | loadFailed _ _ filename _ => filename
  | _ => none

/-- A loader's fault as its caller sees it: whatever is no template fault is a failure to load. -/
def ofLoading (kind : Kind) (name : String) (f : Fault) : Fault :=
  if f.ofTemplate then f
  else .loadFailed s!"Cannot read {kind.text} '{name}': {f.message}" (some name) f.filename?
    (some f.kind)

end Fault

namespace Engine

def builtinTable (entries : List (String × Builtin)) : List (String × Function) :=
  entries.map fun (name, b) => (name, .builtin b)

def mergeFunctions (under top : List (String × Function)) : List (String × Function) :=
  top.foldl (fun acc (name, f) => setProp acc name f) under

def helperTable (given : List (String × Function)) : List (String × Function) :=
  mergeFunctions
    (builtinTable Builtin.helpers ++ [("t", .translate), ("tn", .translatePlural)]) given

def filterTable (given : List (String × Function)) : List (String × Function) :=
  mergeFunctions (builtinTable Builtin.filters) given

/- A name is looked up among the helpers first where a helper is called, and among the filters first
where a value is passed through one. -/
def helper? (e : Engine) (name : String) : Option Function :=
  e.helpers.lookup name <|> e.filters.lookup name

def filter? (e : Engine) (name : String) : Option Function :=
  e.filters.lookup name <|> e.helpers.lookup name

def read (e : Engine) (source : String) (name filename : Option String) : Except Fault Template :=
  (Template.read { name, filename, debug := e.debug } source).map Template.Outcome.template

def cacheKey? (e : Engine) (kind : Kind) (name : String) : Except Fault (Option CacheKey) :=
  if e.cached then do return some ⟨kind, ← e.loader.cacheKey kind name⟩ else .ok none

def remembered? (key : CacheKey) : Run (Option Template) := do
  let w ← get
  let (found, cache) := w.cache.get key
  set { w with cache }
  return found

def keep (key : CacheKey) (t : Template) : Run Unit :=
  modify fun w => { w with cache := w.cache.put key t }

def fetch (e : Engine) (kind : Kind) (name : String) : Except Fault Template :=
  match e.loader.source e.tree kind name with
  | .error f => .error (f.ofLoading kind name)
  | .ok (source, filename) => e.read source (some name) filename

def load (e : Engine) (kind : Kind) (name : String) : Run Template := do
  match ← Run.ofExcept (e.cacheKey? kind name) with
  | none => Run.ofExcept (e.fetch kind name)
  | some key => match ← remembered? key with
    | some t =>
        Run.log .debug s!"Cache hit for {kind.text} {shownText name}"
        return t
    | none =>
        Run.log .debug s!"Cache miss for {kind.text} {shownText name}"
        let t ← Run.ofExcept (e.fetch kind name)
        keep key t
        return t

def load? (e : Engine) (kind : Kind) (name : String) : Run (Option Template) := do
  match ← Run.attempt (e.load kind name) with
  | .ok t => return some t
  | .error f =>
      if f.ofTemplate then
        if e.debug then
          Run.log .warning s!"Failed to load {kind.text} {shownText name}: {f.message}"
        return none
      else throw f

def resolve? (e : Engine) (kind : Kind) (name : String) : Run (Option Template) :=
  match (e.registered.ofKind kind).lookup name with
  | some t => pure (some t)
  | none => e.load? kind name

def register (e : Engine) (kind : Kind) (name : String) (t : Template) : Engine :=
  { e with registered := e.registered.put kind name t }

def shown (e : Engine) : String :=
  "<Environment loader=" ++ e.loader.label ++ " cache=" ++ shownBool e.cached ++
    " debug=" ++ shownBool e.debug ++ ">"

end Engine
end Medley
