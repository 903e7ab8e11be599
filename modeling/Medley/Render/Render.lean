import Medley.Diagnostic.Snippet
import Medley.Engine
import Medley.Template.Slots
import Medley.Template.Token

/-!
Rendering. Nodes are written in order under a scope of names. Problems are confined to the node
they arise in: it writes nothing, or a comment where diagnostics are wanted. Templates nest only
so deep; content of a component or layout is written under the scope it stands in, wherever it
is put.
-/
namespace Medley

/-- What a render has to do with. Its room is how many pieces of content from outside of a template
can still be rendered inside of one another. -/
structure Stage where
  engine : Engine
  host : Host
  sink : Sink
  room : Nat := host.room

namespace Stage

abbrev of (engine : Engine) (host : Host) (sink : Sink) : Stage := { engine, host, sink }

def spent (s : Stage) : Stage := { s with room := s.room - 1 }

theorem roomSpent {s : Stage} (h : 0 < s.room) : s.spent.room < s.room := Nat.sub_one_lt_of_lt h

def resolve (s : Stage) (scope : Scope) (path : String) : Value :=
  Value.resolve s.host.members scope path

def literals : List (String × Value) :=
  [("true", .bool true), ("false", .bool false), ("null", .null), ("none", .null)]

/- The value of an argument as written: text in quotes, a number, or a path; a path that leads
nowhere may be a literal, and anything else stands for itself. -/
def argument (s : Stage) (scope : Scope) (token : String) : Except Fault Value :=
  let chars := token.toList
  match Token.inside? chars with
  | some inside => .ok (.text (String.ofList inside))
  | none =>
      if Token.isInteger chars then match Decimal.readInt chars with
        | .ok n => .ok (.int n)
        | .error (.tooLong digits) => .error (.longInteger digits)
        | .error .malformed => .ok (.text token)
      else if Token.isDecimal chars then .ok (.float ((Decimal.readFloat chars).getD 0.0))
      else if Token.isName chars then match s.resolve scope token with
        | .undefined => .ok ((literals.lookup token).getD .null)
        | v => .ok v
      else .ok (.text token)

def trace (c : RenderContext) : String :=
  let text := Template.chainText false c.stack
  if text.isEmpty then "" else "\n" ++ text

def nameInLog (c : RenderContext) : String := RenderContext.nameInChain c.templateName

def warn (c : RenderContext) (message : String) : Run Unit :=
  if c.debug then Run.log .warning message else pure ()

/- Applies a function in the context of the node, whose problem its failure is. -/
def call (s : Stage) (c : RenderContext) (code : Code) (what : String) (f : Function)
    (args : List Value) : Run Value := do
  match ← Run.attempt (Run.within c (f.apply s.host s.engine.translator args)) with
  | .ok v => return v
  | .error fault =>
      let message := s!"{what} raised {fault.kind}: {fault.message}"
      warn c s!"{message} (in {nameInLog c}){trace c}"
      throw (.diagnostic code message)

def applyFilter (s : Stage) (c : RenderContext) (scope : Scope) (v : Value) (f : FilterCall) :
    Run Value := do
  let what := s!"Filter '{f.name}'"
  match s.engine.filter? f.name with
  | none => throw (.diagnostic .filterNotFound (what ++ " not found"))
  | some g =>
      let args ← Run.ofExcept (f.args.mapM (s.argument scope))
      s.call c .filterError what g (v :: args)

def applyHelper (s : Stage) (c : RenderContext) (scope : Scope) (name : String)
    (args : List String) : Run Value := do
  let what := s!"Helper '{name}'"
  match s.engine.helper? name with
  | none => throw (.diagnostic .helperNotFound (what ++ " not found"))
  | some f =>
      let args ← Run.ofExcept (args.mapM (s.argument scope))
      s.call c .helperError what f args

def applyFilters (s : Stage) (c : RenderContext) (scope : Scope) (filters : List FilterCall)
    (v : Value) : Run Value :=
  filters.foldlM (s.applyFilter c scope) v

def comment (s : Stage) (c : RenderContext) (code : Code) (message : String) : Run Unit :=
  if c.debug then Run.emit s.sink (.comment code.text message) else pure ()

def outputText (escape : Bool) (v : Value) : Except Fault String :=
  match if escape then v.html? else none with
  | some html => .ok html
  | none => v.output.map fun text => if escape then Html.escapeText text else text

/- Evaluates an output; none where it had a problem, which is commented on. -/
def output? (s : Stage) (c : RenderContext) (value : Run Value) : Run (Option Value) := do
  match ← Run.attempt value with
  | .ok v => return some v
  | .error (.diagnostic code message) =>
      s.comment c code message
      return none
  | .error fault => throw fault

def exceeded (s : Stage) (c : RenderContext) (kind : Kind) (name : String) : Run Unit := do
  let message :=
    s!"Maximum nesting depth ({shownInt c.maxDepth}) exceeded at {kind.text} '{name}'"
  warn c (message ++ trace c)
  s.comment c .depthExceeded message

def missing (s : Stage) (c : RenderContext) (kind : Kind) (name : String) : Run Unit :=
  s.comment c kind.notFound s!"{kind.capitalized} '{name}' not found"

/- The names a loop gives its body for one item: the item's own entries under the loop's. -/
def loopScope (scope : Scope) (binder : String) (length index : Nat) (item : Value) : Scope :=
  let names : Layer :=
    [("this", item), ("@index", .int index), ("@first", .bool (index = 0)),
     ("@last", .bool (index + 1 = length)), ("@length", .int length)]
  let names := if (names.lookup binder).isSome then names else (binder, item) :: names
  match item.entries? with
  | some entries => names :: Value.layer entries :: scope
  | none => names :: scope

def componentLayer (level : Nat) (props : Layer) (children : List (Node Value)) (scope : Scope) :
    Layer :=
  setProp (setProp props "$slots" (Slots.fragments level children scope))
    "$children" (.fragment level children scope)

def layoutProps (data : Layer) (layout : String) : Layer := setProp data "layout" (.text layout)

mutual

def nodes (s : Stage) (c : RenderContext) (level : Nat) (scope : Scope) :
    List (Node Value) → Run Unit
  | [] => pure ()
  | n :: ns => do
      s.node c level scope n
      s.nodes c level scope ns
termination_by ns => (s.room, c.remaining, level, sizeOf ns, 0)

def node (s : Stage) (c : RenderContext) (level : Nat) (scope : Scope) : Node Value → Run Unit
  | .text _ content =>
      if content.isEmpty then pure () else Run.emit s.sink (.literal content)
  | .lookup _ path escape filters =>
      s.written c level escape
        (s.applyFilters c scope filters (s.resolve scope path))
  | .call _ name args escape filters =>
      s.written c level escape
        (s.applyHelper c scope name args >>= s.applyFilters c scope filters)
  | .cond _ condition children =>
      if (s.resolve scope condition).truthy then s.nodes c level scope children else pure ()
  | .each _ target binder children =>
      match (s.resolve scope target).items? with
      | some items => s.each c level scope binder children items.length 0 items
      | none => pure ()
  | .embed pos name props => do
      if h : c.depthExceeded then s.exceeded c .embed name
      else match ← s.engine.resolve? .embed name with
        | none => s.missing c .embed name
        | some t =>
            have := RenderContext.remaining_child_lt (by simpa using h) name pos.line
            let layer ← Run.ofExcept (props.mapM fun (key, token) =>
              (s.argument scope token).map fun v => (key, v))
            s.nodes (c.child name pos.line) level (layer :: scope) t.nodes
  | .component pos name props children => do
      if name = Node.slotTag then s.nodes c level scope children
      else if h : c.depthExceeded then s.exceeded c .component name
      else match ← s.engine.resolve? .component name with
        | none => s.missing c .component name
        | some t =>
            have := RenderContext.remaining_child_lt (by simpa using h) name pos.line
            s.nodes (c.child name pos.line) (level + 1)
              (componentLayer level props children scope :: scope) t.nodes
  | .layout pos props children => s.layout c level scope pos.line props children
  | .diagnostic _ code message _ => Run.emit s.sink (.diagnostic code message)
termination_by n => (s.room, c.remaining, level, sizeOf n, 0)

/- Writes a value; content is rendered in place, under its own scope. Content that was not written
around this template comes from outside. -/
def written (s : Stage) (c : RenderContext) (level : Nat) (escape : Bool) (value : Run Value) :
    Run Unit := do
  match ← s.output? c value with
  | none => pure ()
  | some (.fragment inner content scope) =>
      if inner < level then s.nodes c inner scope content
      else if h : 0 < s.room then
        have := roomSpent h
        s.spent.nodes c inner scope content
      else throw .tooDeep
  | some v =>
      let text ← Run.ofExcept (outputText escape v)
      if text.isEmpty then pure () else Run.emit s.sink (.value text)
termination_by (s.room, c.remaining, level, 0, 0)

def each (s : Stage) (c : RenderContext) (level : Nat) (scope : Scope) (binder : String)
    (children : List (Node Value)) (length index : Nat) : List Value → Run Unit
  | [] => pure ()
  | item :: items => do
      s.nodes c level (loopScope scope binder length index item) children
      s.each c level scope binder children length (index + 1) items
termination_by items => (s.room, c.remaining, level, sizeOf children, items.length + 1)

/- Writes children inside the layout that the props name, which may have a layout of its own.
Without the layout the children are written alone. -/
def layout (s : Stage) (c : RenderContext) (level : Nat) (scope : Scope) (line : Int)
    (props : Layer) (children : List (Node Value)) : Run Unit := do
  let name := Value.layoutName props
  let page := props :: scope
  if h : c.depthExceeded then
    s.exceeded c .layout name
    s.nodes c level page children
  else match ← s.engine.resolve? .layout name with
    | none =>
        s.missing c .layout name
        s.nodes c level page children
    | some t =>
        have := RenderContext.remaining_child_lt (by simpa using h) name line
        let content := Value.fragment level children page
        let scope := props :: [("content", content), ("$content", content)] :: scope
        let c' := c.child name line
        match t.metadata.layout with
        | some parent =>
            if parent.isEmpty || parent = name then s.nodes c' (level + 1) scope t.nodes
            else
              s.layout c' (level + 1) scope line (layoutProps t.metadata.frontmatter parent)
                t.nodes
        | none => s.nodes c' (level + 1) scope t.nodes
termination_by (s.room, c.remaining, level, sizeOf children, 1)

end

end Stage

/- What is rendered: a template, or nodes by themselves. Source text has to be read first. -/
inductive Page where
  | template (t : Template)
  | nodes (ns : List (Node Value))
  | source (text : String)

/- Choices for one render. The layout replaces the one that the page names; the locale becomes
metadata. -/
structure RenderOptions where
  layout : Option String := none
  locale : Value := .null
  -- the metadata of the context around the render
  outer : Meta := []

namespace Page

def body : Page → List (Node Value)
  | template t => t.nodes
  | nodes ns => ns
  | source _ => []

def name? : Page → Option String
  | template t => t.name
  | nodes _ | source _ => none

def data : Page → Layer
  | template t => t.metadata.frontmatter
  | nodes _ | source _ => []

def ownLayout? : Page → Option String
  | template t => t.metadata.layout
  | nodes _ | source _ => none

def layout? (p : Page) (given : Option String) : Option String :=
  (given.filter fun s => !s.isEmpty) <|> (p.ownLayout?.filter fun s => !s.isEmpty)

def refusal? : Page → Option Fault
  | source _ => some .sourceText
  | template _ | nodes _ => none

end Page

namespace RenderOptions

def metadata (o : RenderOptions) : Meta :=
  if o.locale.isGiven then o.outer.merge [("locale", o.locale)] else o.outer

def inside (o : RenderOptions) (k : Contexts) : RenderOptions :=
  { o with outer := k.inherited [] }

end RenderOptions

/- Renders a page. Its data are seen before the values given, and those before the globals; in a
layout they are the props of the layout. The innermost layer is the render's own. -/
def Stage.page (s : Stage) (p : Page) (values : Layer) (o : RenderOptions) : Run Unit := do
  modify fun w => { w with metadata := o.metadata }
  match s.sink.unusable? <|> p.refusal? with
  | some fault => throw fault
  | none =>
    let c : RenderContext :=
      { templateName := p.name?, maxDepth := s.engine.maxDepth, debug := s.engine.debug }
    let scope : Scope := [[], values, s.engine.globals]
    match p.layout? o.layout with
    | some layout =>
        s.layout c 0 scope Position.start.line (Stage.layoutProps p.data layout) p.body
    | none => s.nodes c 0 (if p.data.isEmpty then scope else p.data :: scope) p.body

end Medley
