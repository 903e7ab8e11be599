import Medley.Proofs.Template.Tokens
import Medley.Template.Mark

/-! How trees are written. A tree without diagnostics and layouts, whose names, arguments and texts
can stand in a template, has a written form for each choice of spelling: an output and a block is
written in braces or with percent signs, and an element without children with or without a closing
tag. `Written` gives the same forms as a relation between siblings and text. -/
namespace Medley
open Text (spaced)
open Token

/-- One way to write a node, where there are several. -/
structure Wording where
  spelling : Spelling
  -- an element without children ends in its opening tag
  closed : Bool
  deriving DecidableEq, Repr

namespace Header

def node {α : Type} (h : Header) (p : Position) (children : List (Node α)) : Node α :=
  match h with
  | cond condition => .cond p condition children
  | each target binder => .each p target binder children

def phrase : Spelling → Header → List Char
  | _, cond c => spaced ['i', 'f'] [c.toList]
  | .braces, each t b => spaced ['e', 'a', 'c', 'h'] [t.toList, ['a', 's'], b.toList]
  | .percent, each t b => spaced ['f', 'o', 'r'] [b.toList, ['i', 'n'], t.toList]

def opener : Spelling → Header → List Char
  | .braces, h => '\x7b' :: '\x7b' :: ('#' :: h.phrase .braces ++ ['\x7d', '\x7d'])
  | .percent, h => '<' :: '%' :: (' ' :: h.phrase .percent ++ [' '] ++ ['%', '>'])

def ender : Spelling → Header → List Char
  | .braces, cond _ => ['\x7b', '\x7b', '/', 'i', 'f', '\x7d', '\x7d']
  | .braces, each .. => ['\x7b', '\x7b', '/', 'e', 'a', 'c', 'h', '\x7d', '\x7d']
  | .percent, cond _ => ['<', '%', ' ', 'e', 'n', 'd', 'i', 'f', ' ', '%', '>']
  | .percent, each .. => ['<', '%', ' ', 'e', 'n', 'd', 'f', 'o', 'r', ' ', '%', '>']

def Sound : Header → Prop
  | cond c => isName c.toList = true
  | each t b => isName t.toList = true ∧ b.toList ≠ [] ∧ ∀ c ∈ b.toList, Mark.inBinder c = true

end Header

namespace FilterCall

def written (f : FilterCall) : List Char := spaced f.name.toList (f.args.map String.toList)

def Sound (f : FilterCall) : Prop :=
  isName f.name.toList = true ∧ ∀ a ∈ f.args, Argument a.toList

end FilterCall

namespace Written

def expression (first : String) (args : List String) (filters : List FilterCall) : List Char :=
  piped (spaced first.toList (args.map String.toList)) (filters.map FilterCall.written)

def outputStart : Spelling → Bool → List Char
  | .braces, true => ['\x7b', '\x7b']
  | .braces, false => ['\x7b', '\x7b', '\x7b']
  | .percent, true => ['<', '%', '=']
  | .percent, false => ['<', '%', '-']

def outputEnd : Spelling → Bool → List Char
  | .braces, true => ['\x7d', '\x7d']
  | .braces, false => ['\x7d', '\x7d', '\x7d']
  | .percent, _ => ['%', '>']

def outputTag (spelling : Spelling) (escape : Bool) (e : List Char) : List Char :=
  outputStart spelling escape ++ (' ' :: e ++ [' '] ++ outputEnd spelling escape)

def embedTag (name : String) (props : List (String × String)) : List Char :=
  '\x7b' :: '\x7b' :: ('>' :: ' ' ::
    spaced name.toList (props.map fun (key, value) => key.toList ++ '=' :: value.toList) ++
      [' '] ++ ['\x7d', '\x7d'])

def property : String × Value → List Char
  | (key, .text value) => ' ' :: key.toList ++ '=' :: inQuotes value.toList
  | (key, _) => ' ' :: key.toList

def ending (closed : Bool) : List Char := if closed then ['/', '>'] else ['>']

def elementStart (name : String) (props : List (String × Value)) (closed : Bool) : List Char :=
  '<' :: name.toList ++ (props.flatMap property ++ ending closed)

def elementEnd (name : String) : List Char := '<' :: '/' :: name.toList ++ ['>']

end Written

mutual

/- A node in the wording chosen for its place; `place` leads from the node to the root. -/
def Node.written (choice : List Nat → Wording) (place : List Nat) : Node Value → List Char
  | .text _ content => content.toList
  | .lookup _ path escape filters =>
      Written.outputTag (choice place).spelling escape (Written.expression path [] filters)
  | .call _ name args escape filters =>
      Written.outputTag (choice place).spelling escape (Written.expression name args filters)
  | .cond _ condition children =>
      Header.opener (choice place).spelling (.cond condition) ++
        (written.all choice place 0 children ++
          Header.ender (choice place).spelling (.cond condition))
  | .each _ target binder children =>
      Header.opener (choice place).spelling (.each target binder) ++
        (written.all choice place 0 children ++
          Header.ender (choice place).spelling (.each target binder))
  | .component _ name props children =>
      if children.isEmpty && (choice place).closed then Written.elementStart name props true
      else Written.elementStart name props false ++
        (written.all choice place 0 children ++ Written.elementEnd name)
  | .embed _ name props => Written.embedTag name props
  | .layout .. | .diagnostic .. => []

def Node.written.all (choice : List Nat → Wording) (place : List Nat) (i : Nat) :
    List (Node Value) → List Char
  | [] => []
  | n :: ns => n.written choice (i :: place) ++ written.all choice place (i + 1) ns

end

def Node.isText {α : Type} : Node α → Bool
  | .text .. => true
  | _ => false

/- A key, and as its value true or a text without double quotes and less-than signs. -/
structure SoundProp (e : String × Value) : Prop where
  key : ∃ c rest, e.1.toList = c :: rest ∧ Tag.startsAttribute c = true ∧
    ∀ d ∈ rest, Tag.inAttribute d = true
  value : e.2 = .bool true ∨ ∃ value, e.2 = .text value ∧ ∀ c ∈ value.toList, c ≠ '"' ∧ c ≠ '<'

structure SoundProps (props : List (String × Value)) : Prop where
  distinct : (props.map Prod.fst).Nodup
  each : ∀ e ∈ props, SoundProp e

structure SoundEntries (props : List (String × String)) : Prop where
  distinct : (props.map Prod.fst).Nodup
  keys : ∀ e ∈ props, isName e.1.toList = true
  values : ∀ e ∈ props, Argument e.2.toList

def SoundTag (name : String) : Prop :=
  ∃ c rest, name.toList = c :: rest ∧ Text.isAsciiUpper c = true ∧
    ∀ d ∈ rest, Tag.inTagName d = true

mutual

def Node.Sound : Node Value → Prop
  | .text _ content => content ≠ "" ∧ ∀ c ∈ content.toList, c ≠ '\x7b' ∧ c ≠ '<'
  | .lookup _ path _ filters => isName path.toList = true ∧ ∀ f ∈ filters, f.Sound
  | .call _ name args _ filters =>
      isName name.toList = true ∧ args ≠ [] ∧ (∀ a ∈ args, Argument a.toList) ∧
        ∀ f ∈ filters, f.Sound
  | .cond _ condition children => (Header.cond condition).Sound ∧ Sound.all children
  | .each _ target binder children => (Header.each target binder).Sound ∧ Sound.all children
  | .component _ name props children => SoundTag name ∧ SoundProps props ∧ Sound.all children
  | .embed _ name props => isName name.toList = true ∧ SoundEntries props
  | .layout .. | .diagnostic .. => False

def Node.Sound.all : List (Node Value) → Prop
  | [] => True
  | n :: ns => n.Sound ∧ (n.isText = true → ∀ m ∈ ns.head?, m.isText = false) ∧ Sound.all ns

end

inductive Written : List (Node Value) → List Char → Prop where
  | nil : Written [] []
  | text {p content ns s} (nonempty : content ≠ "")
      (plain : ∀ c ∈ content.toList, c ≠ '\x7b' ∧ c ≠ '<')
      (apart : ∀ m ∈ ns.head?, m.isText = false) (rest : Written ns s) :
      Written (.text p content :: ns) (content.toList ++ s)
  | lookup {p path escape filters ns s} (spelling : Spelling) (name : isName path.toList = true)
      (calls : ∀ f ∈ filters, f.Sound) (rest : Written ns s) :
      Written (.lookup p path escape filters :: ns)
        (Written.outputTag spelling escape (Written.expression path [] filters) ++ s)
  | call {p name args escape filters ns s} (spelling : Spelling)
      (sound : isName name.toList = true) (nonempty : args ≠ [])
      (arguments : ∀ a ∈ args, Argument a.toList) (calls : ∀ f ∈ filters, f.Sound)
      (rest : Written ns s) :
      Written (.call p name args escape filters :: ns)
        (Written.outputTag spelling escape (Written.expression name args filters) ++ s)
  | block {p children body ns s} (spelling : Spelling) (header : Header) (sound : header.Sound)
      (inside : Written children body) (rest : Written ns s) :
      Written (header.node p children :: ns)
        (header.opener spelling ++ (body ++ header.ender spelling) ++ s)
  | element {p name props children body ns s} (tag : SoundTag name) (sound : SoundProps props)
      (inside : Written children body) (rest : Written ns s) :
      Written (.component p name props children :: ns)
        (Written.elementStart name props false ++ (body ++ Written.elementEnd name) ++ s)
  | closed {p name props ns s} (tag : SoundTag name) (sound : SoundProps props)
      (rest : Written ns s) :
      Written (.component p name props [] :: ns) (Written.elementStart name props true ++ s)
  | embed {p name props ns s} (sound : isName name.toList = true) (entries : SoundEntries props)
      (rest : Written ns s) :
      Written (.embed p name props :: ns) (Written.embedTag name props ++ s)

namespace Written

theorem ofSound (choice : List Nat → Wording) (place : List Nat) (i : Nat) {ns : List (Node Value)}
    (sound : Node.Sound.all ns) : Written ns (Node.written.all choice place i ns) := by
  match ns, sound with
  | [], _ => exact .nil
  | .text p content :: ns, ⟨⟨nonempty, plain⟩, apart, more⟩ =>
      exact .text nonempty plain (apart rfl) (ofSound choice place (i + 1) more)
  | .lookup p path escape filters :: ns, ⟨⟨name, calls⟩, _, more⟩ =>
      exact .lookup _ name calls (ofSound choice place (i + 1) more)
  | .call p name args escape filters :: ns, ⟨⟨name', nonempty, arguments, calls⟩, _, more⟩ =>
      exact .call _ name' nonempty arguments calls (ofSound choice place (i + 1) more)
  | .cond p condition children :: ns, ⟨⟨header, inside⟩, _, more⟩ =>
      exact .block (choice (i :: place)).spelling (.cond condition) header
        (ofSound choice (i :: place) 0 inside) (ofSound choice place (i + 1) more)
  | .each p target binder children :: ns, ⟨⟨header, inside⟩, _, more⟩ =>
      exact .block (choice (i :: place)).spelling (.each target binder) header
        (ofSound choice (i :: place) 0 inside) (ofSound choice place (i + 1) more)
  | .component p name props children :: ns, ⟨⟨tag, props', inside⟩, _, more⟩ =>
      have rest := ofSound choice place (i + 1) more
      simp only [Node.written.all, Node.written]
      split
      · rename_i short
        have empty : children = [] := by simpa using (Bool.and_eq_true_iff.mp short).1
        subst empty
        exact .closed tag props' rest
      · exact .element tag props' (ofSound choice (i :: place) 0 inside) rest
  | .embed p name props :: ns, ⟨⟨name', entries⟩, _, more⟩ =>
      exact .embed name' entries (ofSound choice place (i + 1) more)

end Written
end Medley
