import Medley.Text.Search
import Medley.Value.Written

/-!
HTML text. Five characters are escaped, which is enough between tags and inside quoted
attributes; unescaping takes the ampersand last, so each entity is read once.
-/
namespace Medley
namespace Html

def escapeChar (c : Char) : List Char :=
  if c = '&' then "&amp;".toList
  else if c = '<' then "&lt;".toList
  else if c = '>' then "&gt;".toList
  else if c = '"' then "&quot;".toList
  else if c = '\'' then "&#39;".toList
  else [c]

def escape (s : List Char) : List Char := s.flatMap escapeChar

/-- Entities with what they stand for; a quote has two. -/
def entities : List (List Char × Char) :=
  [("&lt;".toList, '<'), ("&gt;".toList, '>'), ("&quot;".toList, '"'), ("&#39;".toList, '\''),
   ("&#x27;".toList, '\''), ("&amp;".toList, '&')]

def unescape (s : List Char) : List Char :=
  entities.foldl (fun s (entity, c) => Text.replace entity [c] s) s

def escapeText (s : String) : String := String.ofList (escape s.toList)

def unescapeText (s : String) : String := String.ofList (unescape s.toList)

end Html

namespace Value

def html? : Value → Option String
  | markup s => some s
  | object _ _ html => html
  | _ => none

def escaped (v : Value) : String := (v.html?).getD (Html.escapeText v.written)

def asMarkup (v : Value) : String := (v.html?).getD v.written

end Value

/- Text that is safe to emit as it stands. -/
structure Markup where
  text : String
  deriving DecidableEq, Repr

namespace Markup

/- What is added on either side is escaped unless it is safe. -/
def append (m : Markup) (v : Value) : Markup := ⟨m.text ++ v.escaped⟩

def prepend (v : Value) (m : Markup) : Markup := ⟨v.escaped ++ m.text⟩

def times (m : Markup) (n : Int) : Markup := ⟨String.join (List.replicate n.toNat m.text)⟩

def value (m : Markup) : Value := .markup m.text

end Markup
end Medley
