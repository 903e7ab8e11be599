import Medley.Template.Node
import Medley.Text.Blank
import Medley.Text.Search
import Medley.Text.Word
import Medley.Value.Basic

/-!
Capitalized tags. An opening tag is a name, attributes and `>` or `/>`; blanks follow the name
where there are attributes. A value stands in quotes, in braces or by itself; an attribute
without a value is true.
-/
namespace Medley.Tag
open Text

def startsAttribute (c : Char) : Bool :=
  isAsciiLetter c || c = '_' || c = '@' || c = ':' || c = '$'

def inAttribute (c : Char) : Bool :=
  isWord c || c = ':' || c = '.' || c = '@' || c = '$' || c = '-'

def inBare (c : Char) : Bool :=
  !(isBlank c || c = '"' || c = '\'' || c = '=' || c = '<' || c = '>' || c = '\x60' || c = '/')

/-- A value without quotes. One that begins with a brace loses its first and last character. -/
def bareValue? (s : List Char) : Option (List Char × List Char) :=
  match s.takeWhile inBare with
  | [] => none
  | '\x7b' :: run => some (trim run.dropLast, s.dropWhile inBare)
  | run => some (run, s.dropWhile inBare)

def attributeValue? : List Char → Option (List Char × List Char)
  | '"' :: rest => cut ['"'] rest
  | '\'' :: rest => cut ['\''] rest
  | '\x7b' :: rest => match cut ['\x7d'] rest with
    | some (inside, after) => some (trim inside, after)
    | none => bareValue? ('\x7b' :: rest)
  | s => bareValue? s

def attributeEnd (s : List Char) : Value × List Char :=
  let plain := (Value.bool true, s)
  match trimStart s with
  | '=' :: rest => match attributeValue? (trimStart rest) with
    | some (value, after) => (.text (String.ofList value), after)
    | none => plain
  | _ => plain

theorem trimStart_length_le (s : List Char) : (trimStart s).length ≤ s.length :=
  (List.dropWhile_sublist isBlank).length_le

theorem cut_after_length_le {piece s before after : List Char}
    (h : cut piece s = some (before, after)) : after.length ≤ s.length := by
  induction s generalizing before with
  | nil => grind [cut]
  | cons c rest ih =>
    simp only [cut] at h
    split at h
    · simp only [Option.some.injEq, Prod.mk.injEq] at h
      rw [← h.2]; simp
    · obtain ⟨⟨b, a⟩, hr, he⟩ := Option.map_eq_some_iff.1 h
      simp only [Prod.mk.injEq] at he
      have := ih (he.2 ▸ hr)
      simp only [List.length_cons]; omega

theorem bareValue?_length_le {s value after : List Char}
    (h : bareValue? s = some (value, after)) : after.length ≤ s.length := by
  have : (s.dropWhile inBare).length ≤ s.length := (List.dropWhile_sublist inBare).length_le
  grind [bareValue?]

theorem attributeValue?_length_le {s value after : List Char}
    (h : attributeValue? s = some (value, after)) : after.length ≤ s.length := by
  unfold attributeValue? at h
  split at h
  · exact Nat.le_succ_of_le (cut_after_length_le h)
  · exact Nat.le_succ_of_le (cut_after_length_le h)
  · split at h
    · rename_i hc
      simp only [Option.some.injEq, Prod.mk.injEq] at h
      exact Nat.le_succ_of_le (cut_after_length_le (h.2 ▸ hc))
    · exact bareValue?_length_le h
  · exact bareValue?_length_le h

theorem attributeEnd_length_le (s : List Char) : (attributeEnd s).2.length ≤ s.length := by
  have hs := trimStart_length_le s
  unfold attributeEnd
  split
  · rename_i rest heq
    split
    · rename_i h
      have := attributeValue?_length_le h
      have := trimStart_length_le rest
      simp_all; omega
    · exact Nat.le_refl _
  · exact Nat.le_refl _

structure Opening where
  name : String
  props : List (String × Value)
  -- it ends with `/>` and has no children
  closed : Bool
  -- what follows it
  rest : List Char

/- Attributes up to the end of the tag. `first` says that the name has just ended: then only blanks
or the end of the tag can follow. -/
def attributesFrom (name : String) (props : List (String × Value)) (first : Bool)
    (s : List Char) : Option Opening :=
  match h : trimStart s with
  | '/' :: '>' :: rest => some ⟨name, props, true, rest⟩
  | '>' :: rest => some ⟨name, props, false, rest⟩
  | c :: rest =>
      if first && !(s.head?.any isBlank) then none
      else if startsAttribute c then
        let key := c :: rest.takeWhile inAttribute
        let after := attributeEnd (rest.dropWhile inAttribute)
        have : after.2.length < s.length := by
          have h1 := trimStart_length_le s
          have h2 : after.2.length ≤ _ := attributeEnd_length_le (rest.dropWhile inAttribute)
          have h3 := (List.dropWhile_sublist (l := rest) inAttribute).length_le
          rw [h] at h1; simp only [List.length_cons] at h1; omega
        attributesFrom name (setProp props (String.ofList key) after.1) false after.2
      else none
  | [] => none
termination_by s.length

def inTagName (c : Char) : Bool := isWord c || c = '.'

def opening? : List Char → Option Opening
  | '<' :: c :: rest =>
      if isAsciiUpper c then
        attributesFrom (String.ofList (c :: rest.takeWhile inTagName)) [] true
          (rest.dropWhile inTagName)
      else none
  | _ => none

def closingWidth? (name s : List Char) : Option Nat := do
  let rest ← dropStart? ('<' :: '/' :: name) s
  match trimStart rest with
  | '>' :: _ => some (name.length + 3 + (rest.takeWhile isBlank).length)
  | _ => none

def opensSame (name s : List Char) : Bool :=
  match dropStart? ('<' :: name) s with
  | some (c :: _) => isBlank c || c = '/' || c = '>'
  | _ => false

/- How much stands before the closing tag that ends an element, and the width of that tag. `depth`
elements of the same name are open inside it; `skip` characters belong to a tag already read. -/
def closeFrom (name : List Char) (depth passed : Nat) : Nat → List Char → Option (Nat × Nat)
  | _, [] => none
  | skip + 1, _ :: rest => closeFrom name depth (passed + 1) skip rest
  | 0, c :: rest => match closingWidth? name (c :: rest) with
    | some width =>
        if depth = 0 then some (passed, width)
        else closeFrom name (depth - 1) (passed + 1) (width - 1) rest
    | none =>
        match (if opensSame name (c :: rest) then opening? (c :: rest) else none) with
        | some tag =>
            closeFrom name (if tag.closed then depth else depth + 1) (passed + 1)
              (rest.length - tag.rest.length) rest
        | none => closeFrom name depth (passed + 1) 0 rest

def close? (name s : List Char) : Option (Nat × Nat) := closeFrom name 0 0 0 s

end Medley.Tag
