import Medley.Scope

/-!
Where a render stands: the template, how deep templates are nested and the chain that led there.
Metadata belongs to a family of contexts, those made from one another as children; entering a
context begins a new family that starts from the metadata then active.
-/
namespace Medley

structure RenderContext where
  templateName : Option String := none
  depth : Int := 0
  maxDepth : Int := 50
  debug : Bool := false
  -- templates and lines that led here, the outermost first
  stack : List (String × Int) := []
  deriving DecidableEq, Repr

namespace RenderContext

def depthExceeded (c : RenderContext) : Bool := c.maxDepth ≤ c.depth

def remaining (c : RenderContext) : Nat := (c.maxDepth - c.depth).toNat

def nameInChain : Option String → String
  | some name => if name.isEmpty then "<template>" else name
  | none => "<template>"

def child (c : RenderContext) (name : String) (line : Int) : RenderContext :=
  { c with
    templateName := some name
    depth := c.depth + 1
    stack := c.stack ++ [(nameInChain c.templateName, line)] }

theorem remaining_child_lt {c : RenderContext} (h : c.depthExceeded = false) (name : String)
    (line : Int) : (c.child name line).remaining < c.remaining := by
  simp only [depthExceeded, decide_eq_false_iff_not] at h
  simp only [remaining, child]
  omega

end RenderContext

abbrev Meta := Layer

def Meta.merge (under top : Meta) : Meta :=
  top.foldl (fun acc (k, v) => setProp acc k v) under

def Meta.locale (entries : Meta) : Value := (entries.lookup "locale").getD .null

structure Member where
  context : RenderContext
  family : Nat
  deriving DecidableEq, Repr

/-- Contexts at work: the metadata of every family and the active contexts, the latest first. -/
structure Contexts where
  families : List Meta := []
  active : List Member := []

namespace Contexts

def metaOf (s : Contexts) (m : Member) : Meta := (s.families[m.family]?).getD []

def current? (s : Contexts) : Option Member := s.active.head?

def get (s : Contexts) (m : Member) (key : String) (fallback : Value) : Value :=
  ((s.metaOf m).lookup key).getD fallback

def set (s : Contexts) (m : Member) (key : String) (value : Value) : Contexts :=
  { s with families := s.families.modify m.family fun entries => setProp entries key value }

def withMeta (s : Contexts) (m : Member) (entries : Meta) : Contexts :=
  { s with families := s.families.set m.family entries }

/- A family of its own, with the given metadata. -/
def found (s : Contexts) (context : RenderContext) (entries : Meta) : Contexts × Member :=
  ({ s with families := s.families ++ [entries] }, ⟨context, s.families.length⟩)

/- The metadata that a new family starts from: that of the active context, with what is given
over it. -/
def inherited (s : Contexts) (given : Meta) : Meta :=
  (match s.current? with
    | some m => s.metaOf m
    | none => []).merge given

def install (s : Contexts) (m : Member) : Contexts := { s with active := m :: s.active }

def enter (s : Contexts) (context : RenderContext) (given : Meta) : Contexts × Member :=
  let (s', m) := s.found context (s.inherited given)
  (s'.install m, m)

def exit (s : Contexts) : Contexts := { s with active := s.active.drop 1 }

def child (m : Member) (name : String) (line : Int) : Member :=
  { m with context := m.context.child name line }

end Contexts
end Medley
