import Medley.Diagnostic.Code
import Medley.Template.Tag
import Medley.Template.Token

/-!
Marks: what stands at the front of a source, be it text up to the next marker or a marker.
Markers begin with two opening braces, with a less-than sign and a percent sign, or with a
capitalized tag. What a mark means does not depend on the blocks around it; a marker that is
malformed is broken and stands for its own text.
-/
namespace Medley
open Text

inductive Spelling where
  | braces
  | percent
  deriving DecidableEq, Repr

/-- What a block's closing marker names: a condition or a loop, in its spelling. -/
structure Closer where
  loop : Bool
  spelling : Spelling
  deriving DecidableEq, Repr

inductive Header where
  | cond (condition : String)
  | each (target binder : String)
  deriving DecidableEq, Repr

namespace Header

def isLoop : Header → Bool
  | cond _ => false
  | each .. => true

end Header

def Closer.label : Closer → String
  | ⟨false, .braces⟩ => "\x7b\x7b#if\x7d\x7d"
  | ⟨true, .braces⟩ => "\x7b\x7b#each\x7d\x7d"
  | ⟨false, .percent⟩ => "<% if %>"
  | ⟨true, .percent⟩ => "<% for %>"

inductive Meaning where
  | text
  | comment
  -- an expression whose value is put out, escaped or not
  | output (escape : Bool) (content : List Char)
  | embed (name : String) (props : List (String × String))
  | opens (spelling : Spelling) (header : Header)
  -- the end of a block; none for a name that no block has
  | closes (closer : Option Closer)
  | broken (code : Code) (message : String)
  -- A tag with children has an opening tag of width `tag` and `inner` characters after it
  | element (name : String) (props : List (String × Value)) (tag inner : Nat) (tag_pos : 0 < tag)

/- The first `width` characters of a source and their meaning. -/
structure Mark where
  width : Nat
  width_pos : 0 < width
  meaning : Meaning

namespace Mark

def raw (m : Mark) (s : List Char) : List Char := s.take m.width

def rest (m : Mark) (s : List Char) : List Char := s.drop m.width

theorem raw_append_rest (m : Mark) (s : List Char) : m.raw s ++ m.rest s = s :=
  List.take_append_drop ..

theorem rest_length_lt (m : Mark) {s : List Char} (h : s ≠ []) : (m.rest s).length < s.length := by
  have := m.width_pos
  have := List.length_pos_iff.2 h
  simp only [rest, List.length_drop]; omega

def brokenAt (width : Nat) (h : 0 < width) (code : Code) (message : String) : Mark :=
  ⟨width, h, .broken code message⟩

def begins : List Char → Bool
  | '\x7b' :: '\x7b' :: _ | '<' :: '%' :: _ => true
  | '<' :: c :: _ => isAsciiUpper c
  | _ => false

def textWidth : List Char → Nat
  | [] => 0
  | c :: rest => if begins (c :: rest) then 0 else textWidth rest + 1

def inCloserName (c : Char) : Bool := isWord c || c = '-'

def namedCloser (name : List Char) : Option Closer :=
  if name = "if".toList then some ⟨false, .braces⟩
  else if name = "each".toList then some ⟨true, .braces⟩
  else none

def blankWidth (s : List Char) : Nat := (s.takeWhile isBlank).length

/- A closing marker in braces: a slash and a name, with blanks where one likes. -/
def closingBraces? (s : List Char) : Option Mark := do
  let s ← dropStart? ['\x7b', '\x7b'] s
  let before := blankWidth s
  let s ← dropStart? ['/'] (trimStart s)
  let inside := blankWidth s
  let s := trimStart s
  let name := s.takeWhile inCloserName
  let s := s.dropWhile inCloserName
  let after := blankWidth s
  let _ ← dropStart? ['\x7d', '\x7d'] (trimStart s)
  some ⟨before + inside + name.length + after + 5, Nat.succ_pos _, .closes (namedCloser name)⟩

def closingPercent? (s : List Char) : Option Mark := do
  let s ← dropStart? ['<', '%'] s
  let before := blankWidth s
  let s := trimStart s
  let loop := (dropStart? "endfor".toList s).isSome
  let name := if loop then "endfor".toList else "endif".toList
  let s ← dropStart? name s
  let after := blankWidth s
  let _ ← dropStart? ['%', '>'] (trimStart s)
  some ⟨before + name.length + after + 4, Nat.succ_pos _, .closes (some ⟨loop, .percent⟩)⟩

def emptyTag (raw : List Char) : Meaning :=
  .broken .emptyTag ("Empty " ++ String.ofList raw ++ " tag")

/- The block that `#if` or `#each` opens, from the text after the number sign. A loop names its item
after the word `as`, between bars or not. -/
def blockHeader? (body : List Char) : Option Header :=
  match cutAtBlanks body with
  | none => none
  | some (command, argument) =>
      let argument := trim argument
      if argument.isEmpty then none
      else if command = "if".toList then some (.cond (String.ofList argument))
      else if command = "each".toList then
        match Text.words argument with
        | [] => none
        | target :: more =>
            let binder := match more with
              | word :: name :: _ =>
                  if word = "as".toList then trimChars (· = '|') name else []
              | _ => []
            some (.each (String.ofList target)
              (if binder.isEmpty then "item" else String.ofList binder))
      else none

/- Words with an equals sign after a name are props. -/
def embedProps (words : List (List Char)) : List (String × String) :=
  words.foldl (fun props word =>
    match cutChar '=' word with
    | (_ :: _, none) | ([], _) => props
    | (key, some value) => setProp props (String.ofList key) (String.ofList value)) []

def embedMeaning (body raw : List Char) : Meaning :=
  match Token.words body with
  | [] => .broken .emptyTag ("Partial tag " ++ String.ofList raw ++ " has no name")
  | name :: words => .embed (String.ofList (Token.unquote name)) (embedProps words)

def bracesMeaning (triple : Bool) (content raw : List Char) : Meaning :=
  match trim content with
  | [] => emptyTag raw
  | '!' :: _ => .comment
  | '#' :: body => match blockHeader? (trim body) with
    | some header => .opens .braces header
    | none => .broken .unknownBlock ("Unknown block " ++ String.ofList raw)
  | '>' :: body => embedMeaning (trim body) raw
  | '/' :: body =>
      if triple then .output false ('/' :: body)
      else .broken .strayClose (String.ofList raw ++ " without an open block")
  | content => .output (!triple) content

def bracesComment (s : List Char) : Mark :=
  match cut ['-', '-', '\x7d', '\x7d'] s with
  | some (inside, _) => ⟨inside.length + 9, Nat.succ_pos _, .comment⟩
  | none => brokenAt 5 (Nat.succ_pos _) .unclosedTag "Unclosed \x7b\x7b!-- comment"

def bracesOf (count : Nat) (h : 0 < count) (s : List Char) : Mark :=
  let opener := List.replicate count '\x7b'
  match cut (List.replicate count '\x7d') s with
  | some (inside, _) =>
      let raw := opener ++ inside ++ List.replicate count '\x7d'
      ⟨inside.length + 2 * count, Nat.add_pos_right _ (Nat.mul_pos Nat.two_pos h),
        bracesMeaning (count = 3) inside raw⟩
  | none => brokenAt count h .unclosedTag ("Unclosed " ++ String.ofList opener ++ " tag")

/- The word `name` where no name goes on after it, and what follows. -/
def keyword? (name s : List Char) : Option (List Char) :=
  match dropStart? name s with
  | some (c :: rest) =>
      if isWord c || c = '.' || c = '$' || c = '@' then none else some (c :: rest)
  | other => other

def inBinder (c : Char) : Bool := isWord c || c = '$'

def loopHeader? (content : List Char) : Option Header := do
  let s ← dropStart? "for".toList content
  let s ← if blankWidth s = 0 then none else some (trimStart s)
  let binder := s.takeWhile inBinder
  let s := s.dropWhile inBinder
  let s ← if binder.isEmpty || blankWidth s = 0 then none else some (trimStart s)
  let s ← dropStart? "in".toList s
  let target ← if blankWidth s = 0 then none else some (trim s)
  if target.isEmpty then none
  else some (.each (String.ofList target) (String.ofList binder))

def isBracket (c : Char) : Bool := c = '(' || c = ')'

/- The content of a marker with percent signs that is no comment and no plain output. -/
def statementMeaning (content raw : List Char) : Meaning :=
  match keyword? "if".toList content with
  | some condition =>
      let condition := trim (condition.filter fun c => !isBracket c)
      if condition.isEmpty then
        .broken .unknownBlock (String.ofList raw ++ " has no condition")
      else .opens .percent (.cond (String.ofList condition))
  | none => match loopHeader? content with
    | some header => .opens .percent header
    | none => match keyword? "for".toList content with
      | some _ =>
          .broken .unknownBlock
            ("Expected <% for item in items %>, got " ++ String.ofList raw)
      | none => .output true content

def percentMeaning (inside raw : List Char) : Meaning :=
  let output (escape : Bool) (body : List Char) : Meaning :=
    match trim body with
    | [] => emptyTag raw
    | content => .output escape content
  match inside with
  | '#' :: _ => .comment
  | '=' :: body => output true body
  | '-' :: body => output false body
  | inside => match trim inside with
    | [] => emptyTag raw
    | content => statementMeaning content raw

def percentOf (s : List Char) : Mark :=
  match cut ['%', '>'] s with
  | some (inside, _) =>
      ⟨inside.length + 4, Nat.succ_pos _,
        percentMeaning inside (['<', '%'] ++ inside ++ ['%', '>'])⟩
  | none => brokenAt 2 (Nat.succ_pos _) .unclosedTag "Unclosed <% tag"

/- A tag, or a single less-than sign that is text. -/
def tagOf (s : List Char) : Mark :=
  match Tag.opening? s with
  | none => ⟨1, Nat.one_pos, .text⟩
  | some tag =>
      let width := s.length - tag.rest.length
      if h : 0 < width then
        if tag.closed then ⟨width, h, .element tag.name tag.props width 0 h⟩
        else match Tag.close? tag.name.toList tag.rest with
          | some (inner, closing) =>
              ⟨width + inner + closing, Nat.add_pos_left (Nat.add_pos_left h _) _,
                .element tag.name tag.props width inner h⟩
          | none =>
              brokenAt width h .unclosedComponent
                ("<" ++ tag.name ++ "> has no closing </" ++ tag.name ++ ">")
      else ⟨1, Nat.one_pos, .text⟩

def marker (s : List Char) : Mark :=
  match closingBraces? s <|> closingPercent? s with
  | some m => m
  | none => match s with
    | '\x7b' :: '\x7b' :: '!' :: '-' :: '-' :: rest => bracesComment rest
    | '\x7b' :: '\x7b' :: '\x7b' :: rest => bracesOf 3 (Nat.succ_pos _) rest
    | '\x7b' :: '\x7b' :: rest => bracesOf 2 (Nat.succ_pos _) rest
    | '<' :: '%' :: rest => percentOf rest
    | s => tagOf s

def next (s : List Char) : Mark :=
  if h : textWidth s = 0 then marker s else ⟨textWidth s, Nat.pos_of_ne_zero h, .text⟩

end Mark
end Medley
