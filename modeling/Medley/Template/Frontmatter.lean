import Medley.Json.Read
import Medley.Template.Token
import Medley.Text.Blank
import Medley.Text.Lines
import Medley.Text.Search

/-!
Page data in front of a template: lines `key: value` between two fences of three dashes.
A value is read as JSON, a list in brackets, a boolean, a number, text in quotes or plain text,
whichever fits first.
-/
namespace Medley.Frontmatter
open Text

def isPad (c : Char) : Bool := c = ' ' || c = '\t'

/- What follows a fence that begins here; a fence fills its line. -/
def fence? (s : List Char) : Option (List Char) := do
  let s ← dropStart? ['-', '-', '-'] s
  match s.dropWhile isPad with
  | [] => some []
  | '\n' :: rest | '\r' :: '\n' :: rest => some rest
  | _ => none

/- Without the line break at its end; the text is given last character first. -/
def dropBreak : List Char → List Char
  | '\n' :: '\r' :: rest => rest
  | '\n' :: rest => rest
  | s => s

/-- The lines before the closing fence and what follows it. `block` is what was passed, last
character first, and `lineStart` says whether a line begins here. -/
def blockFrom (block : List Char) (lineStart : Bool) (s : List Char) :
    Option (List Char × List Char) :=
  match (if lineStart then fence? s else none) with
  | some rest => some ((dropBreak block).reverse, rest)
  | none => match s with
    | [] => none
    | c :: rest => blockFrom (c :: block) (c = '\n') rest
termination_by structural s

structure Split where
  block : List Char
  body : List Char
  -- lines that the block takes with its fences
  lines : Nat

/- A source without a complete block is all body. -/
def split (s : List Char) : Option Split := do
  let opened ← fence? s
  if opened.isEmpty then none
  else
    let (block, body) ← blockFrom [] true opened
    some ⟨block, body, s.count '\n' - body.count '\n'⟩

theorem length_le_of_mem_splitOnChar {sep : Char} {s part : List Char}
    (h : part ∈ splitOnChar sep s) : part.length ≤ s.length := by
  suffices ∀ p ∈ splitOnChar sep s, p.length ≤ s.length from this part h
  clear h
  induction s with
  | nil => simp [splitOnChar]
  | cons c rest ih =>
    intro p hp
    simp only [splitOnChar] at hp
    split at hp
    · rcases List.mem_cons.1 hp with rfl | hp
      · simp
      · have := ih p hp; simp; omega
    · split at hp <;> grind

theorem trim_length_le (s : List Char) : (trim s).length ≤ s.length := by
  have h1 : (trimStart s).length ≤ s.length := (List.dropWhile_sublist _).length_le
  have h2 : ((trimStart s).reverse.dropWhile isBlank).length ≤ (trimStart s).reverse.length :=
    (List.dropWhile_sublist _).length_le
  simp only [trim, trimEnd, List.length_reverse] at *
  omega

def bracketed? : List Char → Option (List Char)
  | '[' :: rest => if rest.getLast? = some ']' then some rest.dropLast else none
  | _ => none

theorem bracketed?_length_lt {s inside : List Char} (h : bracketed? s = some inside) :
    inside.length < s.length := by
  unfold bracketed? at h
  split at h
  · split at h
    · simp only [Option.some.injEq] at h
      subst h
      simp only [List.length_dropLast, List.length_cons]
      omega
    · simp at h
  · simp at h

def scalar (s : List Char) : Except Fault Value :=
  if s = "true".toList then .ok (.bool true)
  else if s = "false".toList then .ok (.bool false)
  else if Token.isInteger s then match Decimal.readInt s with
    | .ok n => .ok (.int n)
    | .error (.tooLong digits) => .error (.longInteger digits)
    | .error .malformed => .ok (.text (String.ofList s))
  else if Token.isDecimal s then match Decimal.readFloat s with
    | some x => .ok (.float x)
    | none => .ok (.text (String.ofList s))
  else .ok (.text (String.ofList (Token.unquote s)))

def json? (s : List Char) : Option Value :=
  match s.head? with
  | some '[' | some '\x7b' => (Json.read s).toOption
  | _ => none

def value (s : List Char) : Except Fault Value :=
  match json? (trim s) with
  | some v => .ok v
  | none => match h : bracketed? (trim s) with
    | some inside =>
        if (trim inside).isEmpty then .ok (.list [])
        else do
          let items ← (splitOnChar ',' (trim inside)).attach.mapM fun ⟨part, mem⟩ =>
            have : part.length < s.length := by
              have := length_le_of_mem_splitOnChar mem
              have := trim_length_le inside
              have := bracketed?_length_lt h
              have := trim_length_le s
              omega
            value part
          return .list items
    | none => scalar (trim s)
termination_by s.length

def pair? (line : List Char) : Option (String × List Char) :=
  let line := trim line
  if line.head? = some '#' then none
  else match cutChar ':' line with
    | (key, some raw) =>
        let key := trim key
        if key.isEmpty then none else some (String.ofList key, raw)
    | (_, none) => none

def dataFrom (data : Layer) : List (List Char) → Except Fault Layer
  | [] => .ok data
  | line :: rest => match pair? line with
    | none => dataFrom data rest
    | some (key, raw) => do dataFrom (setProp data key (← value raw)) rest

/- The data of a block: of several entries with one key the last counts, at the place of the
first. -/
def data (block : List Char) : Except Fault Layer := dataFrom [] (lines block)

end Medley.Frontmatter
