import Mathlib.Data.List.Basic
import Medley.Template.Token

/-! Quotes in expressions. Words and stages are read by two scans of the same text: blanks divide
words and bars divide stages, each outside quotes only. Both scans open and close the same quotes,
and one that is never closed takes the rest of the text in either. -/
namespace Medley.Token
open Text

def quoteAfter : Option Char → Char → Option Char
  | some q, c => if c = q then none else some q
  | none, c => if isQuote c then some c else none

def openQuote (s : List Char) : Option Char := s.foldl quoteAfter none

/- `new` in place of every bar outside quotes. -/
def barsAs (new : Char) (quote : Option Char) : List Char → List Char
  | [] => []
  | c :: rest =>
      (if quote = none ∧ c = '|' then new else c) :: barsAs new (quoteAfter quote c) rest

def unbarred (s : List Char) : List Char := barsAs ' ' none s

/-- The words stand in the text one after the other, with blanks or nothing between them. -/
inductive Spread : List (List Char) → List Char → Prop where
  | gap {gap} (blank : ∀ c ∈ gap, isBlank c = true) : Spread [] gap
  | word {gap} (blank : ∀ c ∈ gap, isBlank c = true) (w : List Char) {ws rest}
      (more : Spread ws rest) : Spread (w :: ws) (gap ++ (w ++ rest))

theorem openQuoteNext (word : List Char) (c : Char) :
    openQuote (c :: word).reverse = quoteAfter (openQuote word.reverse) c := by
  simp [openQuote]

theorem closesWithin {q : Char} {s : List Char} (closed : s.foldl quoteAfter (some q) = none) :
    q ∈ s := by
  induction s with
  | nil => contradiction
  | cons c s ih =>
    rw [List.foldl_cons, quoteAfter] at closed
    split at closed
    · rename_i same
      exact same ▸ List.mem_cons_self
    · exact List.mem_cons_of_mem c (ih closed)

theorem blankNoQuote {c : Char} (h : isBlank c = true) : isQuote c = false := by
  cases quote : isQuote c with
  | false => rfl
  | true =>
    simp only [isQuote, Bool.or_eq_true, decide_eq_true_eq] at quote
    rcases quote with rfl | rfl <;> contradiction

def GoesOn (quote : Option Char) (c : Char) (s : List Char) : Prop :=
  quote = none → isBlank c = false ∧ (isQuote c = true → c ∈ s)

/- What a character with `s` behind it is to the reader of words. -/
inductive Met (c : Char) (s : List Char) : Option Char → Prop where
  | divides (blank : isBlank c = true) : Met c s none
  | torn (unblank : isBlank c = false) (mark : isQuote c = true) (never : c ∉ s) : Met c s none
  | goesOn {quote} (on : GoesOn quote c s) : Met c s quote

theorem met (quote : Option Char) (c : Char) (s : List Char) : Met c s quote := by
  cases quote with
  | some q => exact .goesOn nofun
  | none =>
    cases blank : isBlank c with
    | true => exact .divides blank
    | false =>
      by_cases torn : isQuote c = true ∧ c ∉ s
      · exact .torn blank torn.1 torn.2
      · exact .goesOn fun _ => ⟨blank, fun mark => by_contra fun never => torn ⟨mark, never⟩⟩

theorem wordsDivided {c : Char} (blank : isBlank c = true) (word s : List Char) :
    wordsFrom none word (c :: s) = flush word ++ words s := by
  rw [wordsFrom, if_pos blank, words]

theorem wordsTorn {c : Char} {s : List Char} (unblank : isBlank c = false)
    (mark : isQuote c = true) (never : c ∉ s) (word : List Char) :
    wordsFrom none word (c :: s) = flush word ++ [c :: s] := by
  simp [wordsFrom, unblank, mark, never]

theorem wordsOn {quote : Option Char} {c : Char} {s : List Char} (on : GoesOn quote c s)
    (word : List Char) :
    wordsFrom quote word (c :: s) = wordsFrom (quoteAfter quote c) (c :: word) s := by
  cases quote with
  | some q => rfl
  | none =>
    obtain ⟨unblank, closes⟩ := on rfl
    cases mark : isQuote c with
    | false => simp [wordsFrom, unblank, mark, quoteAfter]
    | true => simp [wordsFrom, unblank, mark, closes mark, quoteAfter]

theorem Spread.behindBlank {c : Char} (blank : isBlank c = true) {ws : List (List Char)}
    {s : List Char} (h : Spread ws s) : Spread ws (c :: s) := by
  cases h with
  | gap blanks => exact .gap (List.forall_mem_cons.mpr ⟨blank, blanks⟩)
  | word blanks w more => exact .word (List.forall_mem_cons.mpr ⟨blank, blanks⟩) w more

theorem Spread.behindWord (word : List Char) {ws : List (List Char)} {s : List Char}
    (h : Spread ws s) : Spread (flush word ++ ws) (word.reverse ++ s) := by
  unfold flush
  split
  · rename_i absent
    rw [List.isEmpty_iff.mp absent]
    exact h
  · exact .word (List.forall_mem_nil _) word.reverse h

theorem wordsSpread (quote : Option Char) (word s : List Char) :
    Spread (wordsFrom quote word s) (word.reverse ++ s) := by
  have nothing : Spread [] [] := .gap (List.forall_mem_nil _)
  induction s generalizing quote word with
  | nil => simpa [wordsFrom] using nothing.behindWord word
  | cons c s ih =>
    cases met quote c s with
    | divides blank =>
      rw [wordsDivided blank]
      exact ((ih none []).behindBlank blank).behindWord word
    | torn unblank mark never =>
      have torn : Spread [c :: s] (c :: s) := by
        simpa using Spread.word (List.forall_mem_nil _) (c :: s) nothing
      rw [wordsTorn unblank mark never]
      exact torn.behindWord word
    | goesOn on =>
      rw [wordsOn on]
      simpa using ih (quoteAfter quote c) (c :: word)

theorem wordsApart {c : Char} (blank : isBlank c = true) {quote : Option Char} {s : List Char}
    (closed : s.foldl quoteAfter quote = none) (word rest : List Char) :
    wordsFrom quote word (s ++ c :: rest) = wordsFrom quote word s ++ words rest := by
  induction s generalizing quote word with
  | nil =>
    cases closed
    exact wordsDivided blank word rest
  | cons d s ih =>
    rw [List.foldl_cons] at closed
    rw [List.cons_append]
    cases met quote d s with
    | divides between =>
      have outside : quoteAfter none d = none := by simp [quoteAfter, blankNoQuote between]
      rw [outside] at closed
      rw [wordsDivided between, wordsDivided between, List.append_assoc]
      exact congrArg (flush word ++ ·) (ih closed [])
    | torn unblank mark never =>
      rw [quoteAfter, if_pos mark] at closed
      exact absurd (closesWithin closed) never
    | goesOn on =>
      have further : GoesOn quote d (s ++ c :: rest) := fun outside =>
        ⟨(on outside).1, fun mark => List.mem_append_left _ ((on outside).2 mark)⟩
      rw [wordsOn on, wordsOn further]
      exact ih closed (d :: word)

theorem wordsJoined {parts : List (List Char)}
    (closed : ∀ part ∈ parts.dropLast, openQuote part = none) :
    words ([' '].intercalate parts) = parts.flatMap words := by
  induction parts with
  | nil => rfl
  | cons part parts ih =>
    cases parts with
    | nil => simp
    | cons next parts =>
      rw [List.dropLast_cons_cons, List.forall_mem_cons] at closed
      rw [List.intercalate_cons_cons, List.append_assoc, List.singleton_append, words,
        wordsApart (by decide) closed.1, ih closed.2, List.flatMap_cons]
      rfl

/- A word that has been begun, last character first: once the open quote is closed behind it, it is
read as it was before. -/
structure Begun (quote : Option Char) (word : List Char) : Prop where
  left : openQuote word.reverse = quote
  again : ∀ s, (∀ q ∈ quote, q ∈ s) → words (word.reverse ++ s) = wordsFrom quote word s

theorem Begun.nothing : Begun none [] := ⟨rfl, fun _ _ => rfl⟩

theorem Begun.next {quote : Option Char} {word : List Char} (h : Begun quote word) {c : Char}
    (unblank : quote = none → isBlank c = false) : Begun (quoteAfter quote c) (c :: word) := by
  refine ⟨(openQuoteNext word c).trans (congrArg (quoteAfter · c) h.left), fun s closes => ?_⟩
  have before : ∀ q ∈ quote, q ∈ c :: s := by
    rintro q rfl
    by_cases here : c = q
    · exact here ▸ List.mem_cons_self
    · exact List.mem_cons_of_mem c (closes q (by simp [quoteAfter, here]))
  have on : GoesOn quote c s := by
    rintro rfl
    exact ⟨unblank rfl, fun mark => closes c (by simp [quoteAfter, mark])⟩
  rw [List.reverse_cons, List.append_assoc, List.singleton_append, h.again _ before, wordsOn on]

theorem closesNext {quote : Option Char} {c : Char} {s : List Char} (on : GoesOn quote c s)
    (closes : ∀ q ∈ quote, q ∈ c :: s) : ∀ q ∈ quoteAfter quote c, q ∈ s := by
  intro q left
  cases quote with
  | none =>
    cases mark : isQuote c with
    | false => simp [quoteAfter, mark] at left
    | true =>
      cases (by simpa [quoteAfter, mark] using left : c = q)
      exact (on rfl).2 mark
  | some p =>
    by_cases here : c = p
    · simp [quoteAfter, here] at left
    · cases (by simpa [quoteAfter, here] using left : p = q)
      exact (List.mem_cons.mp (closes q rfl)).resolve_left (Ne.symm here)

structure Kept (ws : List (List Char)) : Prop where
  whole : ∀ w ∈ ws.dropLast, openQuote w = none
  alone : ∀ w ∈ ws, words w = [w]

theorem Kept.behindWord {word : List Char} (begun : Begun none word) {ws : List (List Char)}
    (h : Kept ws) : Kept (flush word ++ ws) := by
  have again := begun.again [] (by simp)
  rw [List.append_nil, wordsFrom] at again
  unfold flush at again ⊢
  split
  · exact h
  · rename_i nonempty
    rw [if_neg nonempty] at again
    refine ⟨fun w member => ?_, List.forall_mem_cons.mpr ⟨again, h.alone⟩⟩
    cases ws with
    | nil => contradiction
    | cons v ws =>
      rcases List.mem_cons.mp member with rfl | inside
      · exact begun.left
      · exact h.whole w inside

theorem wordsKept {quote : Option Char} {word s : List Char} (begun : Begun quote word)
    (closes : ∀ q ∈ quote, q ∈ s) : Kept (wordsFrom quote word s) := by
  induction s generalizing quote word with
  | nil =>
    cases quote with
    | some q => exact absurd (closes q rfl) List.not_mem_nil
    | none =>
      have nothing : Kept [] := ⟨List.forall_mem_nil _, List.forall_mem_nil _⟩
      simpa [wordsFrom] using nothing.behindWord begun
  | cons c s ih =>
    cases met quote c s with
    | divides blank =>
      rw [wordsDivided blank]
      exact (ih .nothing nofun).behindWord begun
    | torn unblank mark never =>
      have alone : words (c :: s) = [c :: s] := wordsTorn unblank mark never []
      have torn : Kept [c :: s] := ⟨List.forall_mem_nil _, by simpa using alone⟩
      rw [wordsTorn unblank mark never]
      exact torn.behindWord begun
    | goesOn on =>
      rw [wordsOn on]
      exact ih (begun.next fun outside => (on outside).1) (closesNext on closes)

theorem stagesBar (part s : List Char) :
    stagesFrom none part ('|' :: s) = part.reverse :: stages s := rfl

theorem stagesOn {quote : Option Char} {c : Char} (on : quote = none → c ≠ '|')
    (part s : List Char) :
    stagesFrom quote part (c :: s) = stagesFrom (quoteAfter quote c) (c :: part) s := by
  cases quote with
  | some q => rfl
  | none => simp [stagesFrom, on rfl, quoteAfter]

theorem stagesSome (quote : Option Char) (part s : List Char) : stagesFrom quote part s ≠ [] := by
  induction s generalizing quote part with
  | nil => simp [stagesFrom]
  | cons c s ih =>
    by_cases bar : quote = none ∧ c = '|'
    · obtain ⟨rfl, rfl⟩ := bar
      simp [stagesBar]
    · rw [stagesOn fun outside same => bar ⟨outside, same⟩]
      exact ih _ _

theorem stagesJoined (new : Char) (quote : Option Char) (part s : List Char) :
    [new].intercalate (stagesFrom quote part s) = part.reverse ++ barsAs new quote s := by
  induction s generalizing quote part with
  | nil => simp [stagesFrom, barsAs]
  | cons c s ih =>
    by_cases bar : quote = none ∧ c = '|'
    · obtain ⟨rfl, rfl⟩ := bar
      obtain ⟨next, more, same⟩ := List.exists_cons_of_ne_nil (stagesSome none [] s)
      have rest := ih none []
      rw [same] at rest
      rw [stagesBar, stages, same, List.intercalate_cons_cons, rest]
      simp [barsAs, quoteAfter, isQuote]
    · rw [stagesOn fun outside same => bar ⟨outside, same⟩, ih, barsAs, if_neg bar]
      simp

theorem barsAsBars (quote : Option Char) (s : List Char) : barsAs '|' quote s = s := by
  induction s generalizing quote with
  | nil => rfl
  | cons c s ih =>
    rw [barsAs, ih]
    split
    · rename_i bar
      rw [bar.2]
    · rfl

theorem stagesClosed {quote : Option Char} {part : List Char}
    (left : openQuote part.reverse = quote) (s : List Char) :
    ∀ stage ∈ (stagesFrom quote part s).dropLast, openQuote stage = none := by
  induction s generalizing quote part with
  | nil => simp [stagesFrom]
  | cons c s ih =>
    by_cases bar : quote = none ∧ c = '|'
    · obtain ⟨rfl, rfl⟩ := bar
      rw [stagesBar, stages, List.dropLast_cons_of_ne_nil (stagesSome none [] s),
        List.forall_mem_cons]
      exact ⟨left, ih rfl⟩
    · rw [stagesOn fun outside same => bar ⟨outside, same⟩]
      exact ih ((openQuoteNext part c).trans (congrArg (quoteAfter · c) left))

theorem joinedClosed {parts : List (List Char)} (closed : ∀ part ∈ parts, openQuote part = none) :
    openQuote (['|'].intercalate parts) = none := by
  induction parts with
  | nil => rfl
  | cons part parts ih =>
    rw [List.forall_mem_cons] at closed
    cases parts with
    | nil => simpa using closed.1
    | cons next parts =>
      have rest := ih closed.2
      have first := closed.1
      unfold openQuote at first rest ⊢
      rw [List.intercalate_cons_cons, List.append_assoc, List.foldl_append, first,
        List.singleton_append, List.foldl_cons]
      exact rest

/- What the words and the stages of one text have to do with it and with each other. -/
structure Agreeing (s : List Char) : Prop where
  spread : Spread (words s) s
  again : words ([' '].intercalate (words s)) = words s
  whole : ∀ w ∈ (words s).dropLast, openQuote w = none
  joined : ['|'].intercalate (stages s) = s
  blanked : [' '].intercalate (stages s) = unbarred s
  together : (stages s).flatMap words = words (unbarred s)
  outside : ∀ before after, stages s = before ++ after → before ≠ [] → after ≠ [] →
    openQuote (['|'].intercalate before) = none
  closed : ∀ stage ∈ (stages s).dropLast, openQuote stage = none

theorem quotesAgree (s : List Char) : Agreeing s := by
  have kept : Kept (words s) := wordsKept .nothing nofun
  have closed : ∀ stage ∈ (stages s).dropLast, openQuote stage = none :=
    @stagesClosed none [] rfl s
  have blanked : [' '].intercalate (stages s) = unbarred s := stagesJoined ' ' none [] s
  refine ⟨wordsSpread none [] s, ?_, kept.whole, ?_, blanked, ?_, ?_, closed⟩
  · rw [wordsJoined kept.whole]
    calc (words s).flatMap words
      _ = (words s).flatMap fun w => [w] := List.flatMap_congr kept.alone
      _ = words s := List.flatMap_singleton' _
  · exact (stagesJoined '|' none [] s).trans (barsAsBars none s)
  · rw [← blanked, wordsJoined closed]
  · intro before after same _ nonempty
    refine joinedClosed fun part member => closed part ?_
    rw [same, List.dropLast_append_of_ne_nil nonempty]
    exact List.mem_append_left _ member

end Medley.Token
