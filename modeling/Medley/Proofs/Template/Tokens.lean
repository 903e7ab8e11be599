import Medley.Proofs.Text.Pieces
import Medley.Template.Token

/-! Words and stages of an expression that is put together from names, integers and quoted text.
Reading such a text gives back the words it was put together from: a blank between two words
divides them, and a bar outside quotes divides two stages. -/
namespace Medley.Token
open Text

structure Loose (c : Char) : Prop where
  unblank : isBlank c = false
  unquoted : isQuote c = false
  unbarred : c ≠ '|'
  unmarked : c ∉ ['\x7b', '\x7d', '<', '%']

theorem nameLoose {c : Char} (h : inName c = true) : Loose c := by
  refine ⟨?_, ?_, unlike h rfl, ?_⟩
  · simp only [inName, Bool.or_eq_true, decide_eq_true_eq] at h
    rcases h with (((word | rfl) | rfl) | rfl) | rfl
    · exact wordNoBlank word
    all_goals rfl
  · simp only [isQuote, Bool.or_eq_false_iff, decide_eq_false_iff_not]
    exact ⟨unlike h rfl, unlike h rfl⟩
  · simp only [List.mem_cons, List.not_mem_nil, or_false, not_or]
    exact ⟨unlike h rfl, unlike h rfl, unlike h rfl, unlike h rfl⟩

theorem digitLoose {c : Char} (h : isDigit c = true) : Loose c := by
  refine ⟨digitNoBlank h, ?_, unlike h rfl, ?_⟩
  · simp only [isQuote, Bool.or_eq_false_iff, decide_eq_false_iff_not]
    exact ⟨unlike h rfl, unlike h rfl⟩
  · simp only [List.mem_cons, List.not_mem_nil, or_false, not_or]
    exact ⟨unlike h rfl, unlike h rfl, unlike h rfl, unlike h rfl⟩

theorem startsLoose {c : Char} (h : startsName c = true) : inName c = true := by
  simp only [startsName, Bool.or_eq_true, decide_eq_true_eq] at h
  simp only [inName, Bool.or_eq_true, decide_eq_true_eq]
  rcases h with ((letter | rfl) | rfl) | rfl
  · exact .inl (.inl (.inl (.inl (letterWord letter))))
  all_goals decide

theorem nameChars {w : List Char} (h : isName w = true) : w ≠ [] ∧ ∀ c ∈ w, inName c = true := by
  cases w with
  | nil => simp [isName] at h
  | cons c rest =>
    simp only [isName, Bool.and_eq_true, List.all_eq_true] at h
    refine ⟨by simp, fun d member => ?_⟩
    rcases List.mem_cons.mp member with rfl | inside
    · exact startsLoose h.1
    · exact h.2 d inside

/- Read outside quotes, the text lengthens the word, or the stage, that is being read. -/
def Solid (w : List Char) : Prop :=
  ∀ word rest, wordsFrom none word (w ++ rest) = wordsFrom none (w.reverse ++ word) rest

def Barless (w : List Char) : Prop :=
  ∀ part rest, stagesFrom none part (w ++ rest) = stagesFrom none (w.reverse ++ part) rest

theorem solidAppend {v w : List Char} (first : Solid v) (second : Solid w) : Solid (v ++ w) := by
  intro word rest
  rw [List.append_assoc, first, second, List.reverse_append, List.append_assoc]

theorem barlessAppend {v w : List Char} (first : Barless v) (second : Barless w) :
    Barless (v ++ w) := by
  intro part rest
  rw [List.append_assoc, first, second, List.reverse_append, List.append_assoc]

theorem solidLoose {w : List Char} (h : ∀ c ∈ w, Loose c) : Solid w := by
  induction w with
  | nil => intro word rest; rfl
  | cons c w ih =>
    have first := h c List.mem_cons_self
    have more := ih fun d member => h d (List.mem_cons_of_mem c member)
    intro word rest
    simp only [List.cons_append, wordsFrom, first.unblank, first.unquoted, Bool.false_eq_true,
      if_false]
    rw [more]
    simp

theorem barlessLoose {w : List Char} (h : ∀ c ∈ w, isQuote c = false ∧ c ≠ '|') : Barless w := by
  induction w with
  | nil => intro part rest; rfl
  | cons c w ih =>
    obtain ⟨unquoted, unbarred⟩ := h c List.mem_cons_self
    have more := ih fun d member => h d (List.mem_cons_of_mem c member)
    intro part rest
    simp only [List.cons_append, stagesFrom, unquoted, unbarred, Bool.false_eq_true, if_false]
    rw [more]
    simp

theorem wordsInside {inside : List Char} (h : '"' ∉ inside) (word rest : List Char) :
    wordsFrom (some '"') word (inside ++ rest) =
      wordsFrom (some '"') (inside.reverse ++ word) rest := by
  induction inside generalizing word with
  | nil => rfl
  | cons c inside ih =>
    have other : c ≠ '"' := fun same => h (same ▸ List.mem_cons_self)
    simp only [List.cons_append, wordsFrom, other, if_false]
    rw [ih fun member => h (List.mem_cons_of_mem c member)]
    simp

theorem stagesInside {inside : List Char} (h : '"' ∉ inside) (part rest : List Char) :
    stagesFrom (some '"') part (inside ++ rest) =
      stagesFrom (some '"') (inside.reverse ++ part) rest := by
  induction inside generalizing part with
  | nil => rfl
  | cons c inside ih =>
    have other : c ≠ '"' := fun same => h (same ▸ List.mem_cons_self)
    simp only [List.cons_append, stagesFrom, other, if_false]
    rw [ih fun member => h (List.mem_cons_of_mem c member)]
    simp

def inQuotes (inside : List Char) : List Char := '"' :: (inside ++ ['"'])

theorem solidQuotes {inside : List Char} (h : '"' ∉ inside) : Solid (inQuotes inside) := by
  intro word rest
  have closed : (inside ++ ['"'] ++ rest).contains '"' = true := by simp
  have unblank : isBlank '"' = false := rfl
  have quote : isQuote '"' = true := rfl
  simp only [inQuotes, List.cons_append, wordsFrom, unblank, quote, closed, Bool.false_eq_true,
    if_false, if_true]
  rw [List.append_assoc, wordsInside h]
  simp [wordsFrom]

theorem barlessQuotes {inside : List Char} (h : '"' ∉ inside) : Barless (inQuotes inside) := by
  intro part rest
  have unbarred : '"' ≠ '|' := by decide
  have quote : isQuote '"' = true := rfl
  simp only [inQuotes, List.cons_append, stagesFrom, unbarred, quote, if_false, if_true]
  rw [List.append_assoc, stagesInside h]
  simp [stagesFrom]

/-- An argument as written: a name, an integer, or text in double quotes that holds no quote, no
brace, no less-than sign and no percent sign. -/
inductive Argument : List Char → Prop where
  | name {w} (h : isName w = true) : Argument w
  | integer {w} (h : isInteger w = true) : Argument w
  | quoted {inside} (h : ∀ c ∈ inside, c ∉ ['"', '\x7b', '\x7d', '<', '%']) :
      Argument (inQuotes inside)

def Tame (s : List Char) : Prop := ∀ c ∈ s, c ∉ ['\x7b', '\x7d', '<', '%']

theorem tameAppend {s t : List Char} (first : Tame s) (second : Tame t) : Tame (s ++ t) := by
  intro c member
  rcases List.mem_append.mp member with h | h
  · exact first c h
  · exact second c h

theorem integerLoose {w : List Char} (h : isInteger w = true) :
    w ≠ [] ∧ ∀ c ∈ w, Loose c := by
  have digits : ∀ v : List Char, isDigits v = true → v ≠ [] ∧ ∀ c ∈ v, Loose c := by
    intro v all
    simp only [isDigits, Bool.and_eq_true, List.all_eq_true, Bool.not_eq_true',
      List.isEmpty_eq_false_iff] at all
    exact ⟨all.1, fun c member => digitLoose (all.2 c member)⟩
  unfold isInteger dropSign at h
  split at h
  · obtain ⟨_, all⟩ := digits _ h
    refine ⟨by simp, fun c member => ?_⟩
    rcases List.mem_cons.mp member with rfl | inside
    · exact nameLoose rfl
    · exact all c inside
  · exact digits _ h

theorem nameWord {w : List Char} (h : isName w = true) : w ≠ [] ∧ ∀ c ∈ w, Loose c :=
  ⟨(nameChars h).1, fun c member => nameLoose ((nameChars h).2 c member)⟩

theorem looseBarless {w : List Char} (h : ∀ c ∈ w, Loose c) : Barless w :=
  barlessLoose fun c member => ⟨(h c member).unquoted, (h c member).unbarred⟩

theorem looseTame {w : List Char} (h : ∀ c ∈ w, Loose c) : Tame w :=
  fun c member => (h c member).unmarked

/- What the tokens of an expression have in common: a word that is whole for the reader of words
and for the reader of stages, and that holds no marker. -/
structure Word (w : List Char) : Prop where
  ends : Ends w
  solid : Solid w
  barless : Barless w
  tame : Tame w

theorem Word.some {w : List Char} (h : Word w) : w ≠ [] := by
  obtain ⟨before, c, rfl, _⟩ := h.ends
  simp

theorem looseWord {w : List Char} (nonempty : w ≠ []) (h : ∀ c ∈ w, Loose c) : Word w :=
  ⟨endsAll nonempty fun c member => (h c member).unblank, solidLoose h, looseBarless h, looseTame h⟩

theorem nameIsWord {w : List Char} (h : isName w = true) : Word w :=
  looseWord (nameWord h).1 (nameWord h).2

theorem argumentWord {w : List Char} (h : Argument w) : Word w := by
  cases h with
  | name h => exact nameIsWord h
  | integer h => exact looseWord (integerLoose h).1 (integerLoose h).2
  | @quoted inside h =>
    have noQuote : '"' ∉ inside := fun member => h _ member (by simp)
    refine ⟨⟨'"' :: inside, '"', rfl, rfl⟩, solidQuotes noQuote, barlessQuotes noQuote, ?_⟩
    have marks : Tame ['"'] := fun c member => by
      rw [List.mem_singleton.mp member]
      decide
    have between : Tame inside := fun c member marked => h c member (List.mem_cons_of_mem _ marked)
    exact tameAppend marks (tameAppend between marks)

theorem wordsPad {pad : List Char} (blank : ∀ c ∈ pad, isBlank c = true) (word : List Char) :
    wordsFrom none word pad = flush word := by
  induction pad generalizing word with
  | nil => rfl
  | cons c pad ih =>
    have first := blank c List.mem_cons_self
    simp only [wordsFrom, first, if_true]
    rw [ih fun d member => blank d (List.mem_cons_of_mem c member)]
    simp [flush]

theorem wordsMore {more : List (List Char)} (each : ∀ w ∈ more, Word w) {pad : List Char}
    (blank : ∀ c ∈ pad, isBlank c = true) (word : List Char) :
    wordsFrom none word (more.flatMap (' ' :: ·) ++ pad) = flush word ++ more := by
  induction more generalizing word with
  | nil => simpa using wordsPad blank word
  | cons w more ih =>
    have first := each w List.mem_cons_self
    have rest := ih (fun v member => each v (List.mem_cons_of_mem w member)) w.reverse
    have whole : flush w.reverse = [w] := by simp [flush, first.some]
    simp only [List.flatMap_cons, List.cons_append, wordsFrom, blankSpace, if_true]
    rw [List.append_assoc, first.solid, List.append_nil, rest, whole]
    simp

theorem wordsSpaced {first : List Char} {more : List (List Char)} (head : Word first)
    (each : ∀ w ∈ more, Word w) {lead pad : List Char} (before : ∀ c ∈ lead, isBlank c = true)
    (after : ∀ c ∈ pad, isBlank c = true) :
    words (lead ++ spaced first more ++ pad) = first :: more := by
  have start : ∀ lead : List Char, (∀ c ∈ lead, isBlank c = true) → ∀ s,
      wordsFrom none [] (lead ++ s) = wordsFrom none [] s := by
    intro lead before s
    induction lead with
    | nil => rfl
    | cons c lead ih =>
      have blank := before c List.mem_cons_self
      simp only [List.cons_append, wordsFrom, blank, if_true]
      exact ih fun d member => before d (List.mem_cons_of_mem c member)
  have whole : flush first.reverse = [first] := by simp [flush, head.some]
  rw [words, List.append_assoc, start lead before, spaced, List.append_assoc, head.solid,
    List.append_nil, wordsMore each after, whole]
  rfl

theorem spacedBarless {first : List Char} {more : List (List Char)} (head : Word first)
    (each : ∀ w ∈ more, Word w) : Barless (spaced first more) := by
  have blank : Barless [' '] := barlessLoose fun c member => by
    rw [List.mem_singleton.mp member]
    decide
  refine barlessAppend head.barless ?_
  induction more with
  | nil => intro part rest; rfl
  | cons w more ih =>
    rw [List.flatMap_cons]
    exact barlessAppend (barlessAppend blank (each w List.mem_cons_self).barless)
      (ih fun v member => each v (List.mem_cons_of_mem w member))

theorem spacedTame {first : List Char} {more : List (List Char)} (head : Tame first)
    (each : ∀ w ∈ more, Tame w) : Tame (spaced first more) := by
  refine tameAppend head fun c member => ?_
  obtain ⟨w, inside, here⟩ := List.mem_flatMap.mp member
  rcases List.mem_cons.mp here with rfl | here
  · decide
  · exact each w inside c here

def piped (first : List Char) (more : List (List Char)) : List Char :=
  first ++ more.flatMap ([' ', '|', ' '] ++ ·)

def pipedStages (first : List Char) : List (List Char) → List (List Char)
  | [] => [first]
  | next :: more => (first ++ [' ']) :: pipedStages (' ' :: next) more

theorem stagesPiped {first : List Char} {more : List (List Char)} (head : Barless first)
    (each : ∀ s ∈ more, Barless s) : stages (piped first more) = pipedStages first more := by
  have blank : Barless [' '] := barlessLoose fun c member => by
    rw [List.mem_singleton.mp member]
    decide
  unfold stages piped
  induction more generalizing first with
  | nil =>
    rw [List.flatMap_nil, head]
    simp [stagesFrom, pipedStages]
  | cons next more ih =>
    have second : Barless (' ' :: next) := barlessAppend blank (each next List.mem_cons_self)
    have rest := ih second fun s member => each s (List.mem_cons_of_mem next member)
    have front : first ++ (next :: more).flatMap ([' ', '|', ' '] ++ ·) =
        first ++ ([' '] ++ '|' :: ((' ' :: next) ++ more.flatMap ([' ', '|', ' '] ++ ·))) := by
      simp
    rw [front, head, blank]
    simp only [stagesFrom, if_true]
    rw [rest]
    simp [pipedStages]

theorem pipedEnds {first : List Char} {more : List (List Char)} (head : Ends first)
    (each : ∀ w ∈ more, Ends w) : Ends (piped first more) := by
  induction more generalizing first with
  | nil => simpa [piped] using head
  | cons w more ih =>
    have second := endsAppend (s := first ++ [' ', '|', ' ']) (each w List.mem_cons_self)
    have rest := ih second fun v member => each v (List.mem_cons_of_mem w member)
    simpa [piped] using rest

theorem pipedTame {first : List Char} {more : List (List Char)} (head : Tame first)
    (each : ∀ w ∈ more, Tame w) : Tame (piped first more) := by
  refine tameAppend head fun c member => ?_
  obtain ⟨w, inside, here⟩ := List.mem_flatMap.mp member
  rcases List.mem_append.mp here with here | here
  · have bar : Tame [' ', '|', ' '] := eachOf rfl
    exact bar c here
  · exact each w inside c here

end Medley.Token
