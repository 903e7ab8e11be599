import Medley.Diagnostic.Code
import Medley.Template.Mark

/-!
Marks become a tree. Blocks that are open stand in a stack, the innermost first. A closing
marker ends the innermost block it fits; the blocks inside that one, and all that are open at
the end, are unclosed: the opening marker of an unclosed block is malformed, and what the block
holds follows it among its siblings. Children of an element are read by themselves.
-/
namespace Medley
open Text (trim)

/-- An open block and the siblings before it, last first. -/
structure Frame where
  spelling : Spelling
  header : Header
  pos : Position
  raw : String
  before : List (Node Value)

namespace Frame

def closer (f : Frame) : Closer := ⟨f.header.isLoop, f.spelling⟩

def node (f : Frame) (children : List (Node Value)) : Node Value :=
  match f.header with
  | .cond condition => .cond f.pos condition children
  | .each target binder => .each f.pos target binder children

def unclosed (f : Frame) : Issue :=
  ⟨.unclosedBlock, "Unclosed " ++ f.closer.label ++ " block", f.pos, f.raw⟩

end Frame

/- What stands in the tree for a malformed construct: a diagnostic, or its text. -/
def Issue.node (debug : Bool) (i : Issue) : Node Value :=
  if debug then .diagnostic i.pos i.code.text i.message i.source else .text i.pos i.source

/- A tree being built: the siblings at the place reached, the blocks around it, and the issues,
the latest first. -/
structure Builder where
  current : List (Node Value)
  frames : List Frame
  issues : List Issue

namespace Builder

def push (b : Builder) (n : Node Value) : Builder := { b with current := Node.push b.current n }

def malformed (debug : Bool) (b : Builder) (i : Issue) : Builder :=
  ⟨Node.push b.current (i.node debug), b.frames, i :: b.issues⟩

def openBlock (b : Builder) (spelling : Spelling) (header : Header) (pos : Position)
    (raw : String) : Builder :=
  ⟨[], ⟨spelling, header, pos, raw, b.current⟩ :: b.frames, b.issues⟩

/- The siblings of an unclosed block, with its opening marker and its children. -/
def spill (debug : Bool) (f : Frame) (children : List (Node Value)) : List (Node Value) :=
  Node.pushAll (Node.push f.before (f.unclosed.node debug)) children.reverse

/- Ends the innermost block that `closer` fits; there is one. -/
def closeFrom (debug : Bool) (closer : Closer) (current : List (Node Value))
    (issues : List Issue) : List Frame → Builder
  | [] => ⟨current, [], issues⟩
  | f :: frames =>
      if f.closer = closer then
        ⟨Node.push f.before (f.node current.reverse), frames, issues⟩
      else closeFrom debug closer (spill debug f current) (f.unclosed :: issues) frames

def close? (debug : Bool) (b : Builder) (closer : Option Closer) : Option Builder := do
  let closer ← closer
  if b.frames.any fun f => f.closer = closer then
    some (closeFrom debug closer b.current b.issues b.frames)
  else none

def finishFrom (debug : Bool) (current : List (Node Value)) (issues : List Issue) :
    List Frame → Builder
  | [] => ⟨current, [], issues⟩
  | f :: frames => finishFrom debug (spill debug f current) (f.unclosed :: issues) frames

/- At the end of the source every open block is unclosed. -/
def finish (debug : Bool) (b : Builder) : Builder :=
  finishFrom debug b.current b.issues b.frames

end Builder

/- A name followed by arguments calls a helper; anything else is a path. Either may be followed by
filters. -/
def Node.ofExpression (pos : Position) (escape : Bool) (content : List Char) : Node Value :=
  let text := String.ofList
  let parts := Token.stages content
  let head := parts.headD []
  let filters := parts.tail.filterMap fun stage => match Token.words stage with
    | [] => none
    | name :: args => some ⟨text name, args.map text⟩
  let path := Node.lookup pos (text (trim head)) escape filters
  match Token.words head with
  | name :: arg :: args =>
      if Token.isName name then .call pos (text name) ((arg :: args).map text) escape filters
      else path
  | _ => path

namespace Builder

theorem inside_length_lt {tag : Nat} (inner : Nat) (tag_pos : 0 < tag) {s : List Char}
    (h : s ≠ []) : ((s.drop tag).take inner).length < s.length := by
  have := List.length_pos_iff.2 h
  simp only [List.length_take, List.length_drop]; omega

def read (debug : Bool) (pos : Position) (b : Builder) (s : List Char) : Builder :=
  if h : s = [] then b
  else
    let m := Mark.next s
    let raw := m.raw s
    let b' := match m.meaning with
      | .text => b.push (.text pos (String.ofList raw))
      | .comment => b
      | .output escape content => b.push (.ofExpression pos escape content)
      | .embed name props => b.push (.embed pos name props)
      | .opens spelling header => b.openBlock spelling header pos (String.ofList raw)
      | .closes closer => match b.close? debug closer with
        | some b => b
        | none => b.malformed debug
            ⟨.strayClose, String.ofList raw ++ " without an open block", pos, String.ofList raw⟩
      | .broken code message => b.malformed debug ⟨code, message, pos, String.ofList raw⟩
      | .element name props tag inner tag_pos =>
          have := inside_length_lt inner tag_pos h
          let children := (read debug (pos.advance (s.take tag)) ⟨[], [], b.issues⟩
            ((s.drop tag).take inner)).finish debug
          ⟨Node.push b.current (.component pos name props children.current.reverse), b.frames,
            children.issues⟩
    have := m.rest_length_lt h
    read debug (pos.advance raw) b' (m.rest s)
termination_by s.length

end Builder

structure Reading where
  nodes : List (Node Value)
  issues : List Issue

def Reading.ofSource (debug : Bool) (pos : Position) (s : List Char) : Reading :=
  let b := (Builder.read debug pos ⟨[], [], []⟩ s).finish debug
  ⟨b.current.reverse, b.issues.reverse⟩

end Medley
