import Mathlib.Data.List.Basic
import Medley.Text.Blank
import Medley.Text.Characters
import Medley.Text.Search
import Medley.Text.Word

/-! Cutting and trimming text that is put together from parts. A part is found again where
nothing before it could be taken for what follows it. -/
namespace Medley.Text

theorem eachOf {α : Type} {p : α → Prop} [DecidablePred p] {l : List α}
    (h : (l.all fun x => decide (p x)) = true) : ∀ x ∈ l, p x := by simpa using h

theorem unlike {α : Type} {f : α → Bool} {c d : α} (yes : f c = true) (no : f d = false) :
    c ≠ d := by
  rintro rfl
  rw [yes] at no
  contradiction

def blankChars : List Char :=
  [9, 10, 11, 12, 13, 28, 29, 30, 31, 32, 133, 160, 5760, 8192, 8193, 8194, 8195, 8196, 8197, 8198,
    8199, 8200, 8201, 8202, 8232, 8233, 8239, 8287, 12288].map Char.ofNat

theorem blankChar {c : Char} (h : isBlank c = true) : c ∈ blankChars := by
  have code : c.toNat ∈ [9, 10, 11, 12, 13, 28, 29, 30, 31, 32, 133, 160, 5760, 8192, 8193, 8194,
      8195, 8196, 8197, 8198, 8199, 8200, 8201, 8202, 8232, 8233, 8239, 8287, 12288] := by
    simp [isBlank, blankRanges, Ranges.contains] at h ⊢
    omega
  rw [← Char.ofNat_toNat c]
  exact List.mem_map_of_mem code

theorem blankNoWord : ∀ c ∈ blankChars, isWord c = false ∧ isDigit c = false :=
  eachOf (by decide +kernel)

theorem wordNoBlank {c : Char} (h : isWord c = true) : isBlank c = false := by
  cases blank : isBlank c with
  | false => rfl
  | true => exact absurd h (by simp [(blankNoWord c (blankChar blank)).1])

theorem digitNoBlank {c : Char} (h : isDigit c = true) : isBlank c = false := by
  cases blank : isBlank c with
  | false => rfl
  | true => exact absurd h (by simp [(blankNoWord c (blankChar blank)).2])

theorem letterWord {c : Char} (h : isAsciiLetter c = true) : isWord c = true := by
  have ascii : c.toNat < 0x80 := by
    simp only [isAsciiLetter, Bool.or_eq_true, Bool.and_eq_true, decide_eq_true_eq, Char.le_def,
      UInt32.le_iff_toNat_le] at h
    have z : ('z' : Char).val.toNat = 122 := rfl
    have z' : ('Z' : Char).val.toNat = 90 := rfl
    simp only [Char.toNat]
    omega
  simp [isWord, ascii, h]

theorem runEnds {p : Char → Bool} {run s : List Char} (inside : ∀ c ∈ run, p c = true)
    (ends : ∀ c ∈ s.head?, p c = false) :
    (run ++ s).takeWhile p = run ∧ (run ++ s).dropWhile p = s := by
  rw [List.takeWhile_append_of_pos inside, List.dropWhile_append_of_pos inside]
  cases s with
  | nil => simp
  | cons c s => simp [ends c rfl]

theorem cutAt {p : Char} {x : List Char} (h : p ∉ x) (ps t : List Char) :
    cut (p :: ps) (x ++ (p :: ps ++ t)) = some (x, t) := by
  induction x with
  | nil => simp [cut]
  | cons c x ih =>
    have other : (p == c) = false := by
      rw [beq_eq_false_iff_ne]
      exact fun same => h (same ▸ List.mem_cons_self)
    have rest := ih fun member => h (List.mem_cons_of_mem c member)
    simp only [List.cons_append, cut, List.isPrefixOf, other, Bool.false_and, Bool.false_eq_true,
      if_false] at rest ⊢
    rw [rest]
    rfl

theorem cutParts {piece s before after : List Char} (h : cut piece s = some (before, after)) :
    s = before ++ (piece ++ after) := by
  induction s generalizing before with
  | nil =>
    rw [cut] at h
    split at h
    · rename_i empty
      cases h
      rw [List.isEmpty_iff.mp empty]
      rfl
    · contradiction
  | cons c s ih =>
    rw [cut] at h
    split at h
    · rename_i front
      cases h
      obtain ⟨rest, same⟩ := List.isPrefixOf_iff_prefix.mp front
      rw [← same, List.drop_left]
      rfl
    · obtain ⟨⟨front, rest⟩, found, same⟩ := Option.map_eq_some_iff.mp h
      cases same
      rw [ih found]
      rfl

theorem trimSubset (s : List Char) : trim s ⊆ s := by
  intro c member
  refine (List.dropWhile_suffix isBlank).subset ?_
  refine List.mem_reverse.mp ((List.dropWhile_suffix isBlank).subset ?_)
  exact List.mem_reverse.mp member

theorem dropStartAppend (s t : List Char) : dropStart? s (s ++ t) = some t := by
  simp [dropStart?]

theorem dropStartOther {c d : Char} (h : c ≠ d) (s t : List Char) :
    dropStart? (c :: s) (d :: t) = none := by
  simp [dropStart?, List.isPrefixOf, h]

theorem dropStartNone {start s : List Char} (h : ¬ start <+: s) : dropStart? start s = none := by
  simp [dropStart?, h]

theorem dropStartSome {start s rest : List Char} (h : dropStart? start s = some rest) :
    s = start ++ rest := by
  unfold dropStart? at h
  split at h
  · rename_i front
    obtain ⟨more, rfl⟩ := List.isPrefixOf_iff_prefix.mp front
    cases h
    simp
  · contradiction

/- A text whose first character is nowhere else in it, begun in front of another of its kind, is
there before it. -/
theorem prefixBefore {p : Char} {ps u v : List Char} (once : p ∉ ps) (nonempty : u ≠ [])
    (next : ∀ c ∈ v.head?, c = p) (h : p :: ps <+: u ++ v) : p :: ps <+: u := by
  rcases List.prefix_or_prefix_of_prefix h (List.prefix_append u v) with inside | ⟨rest, same⟩
  · exact inside
  · cases rest with
    | nil => exact ⟨[], by simpa using same.symm⟩
    | cons d rest =>
      rw [← same, List.prefix_append_right_inj] at h
      obtain ⟨behind, rfl⟩ := h
      cases u with
      | nil => exact absurd rfl nonempty
      | cons c u =>
        have tail := (List.cons.inj same).2
        rw [next d rfl] at tail
        exact absurd (tail ▸ List.mem_append_right u List.mem_cons_self) once

/- A text ends, or begins, with a character that is no blank. -/
def Ends (s : List Char) : Prop := ∃ before c, s = before ++ [c] ∧ isBlank c = false

theorem endsAppend {s t : List Char} (h : Ends t) : Ends (s ++ t) := by
  obtain ⟨before, c, rfl, unblank⟩ := h
  exact ⟨s ++ before, c, (List.append_assoc ..).symm, unblank⟩

theorem endsAll {s : List Char} (nonempty : s ≠ []) (h : ∀ c ∈ s, isBlank c = false) : Ends s :=
  ⟨s.dropLast, s.getLast nonempty, (List.dropLast_append_getLast nonempty).symm,
    h _ (List.getLast_mem nonempty)⟩

def Begins (s : List Char) : Prop := ∃ c rest, s = c :: rest ∧ isBlank c = false

theorem trimStartLead {lead : List Char} (blank : ∀ c ∈ lead, isBlank c = true) {s : List Char}
    (begins : Begins s) (t : List Char) : trimStart (lead ++ s ++ t) = s ++ t := by
  obtain ⟨c, rest, rfl, unblank⟩ := begins
  rw [List.append_assoc]
  induction lead with
  | nil => simp [trimStart, unblank]
  | cons d lead ih =>
    have first := blank d List.mem_cons_self
    simp only [List.cons_append, trimStart, List.dropWhile_cons, first, if_true]
    exact ih fun e member => blank e (List.mem_cons_of_mem d member)

theorem trimPadded {lead s pad : List Char} (before : ∀ c ∈ lead, isBlank c = true)
    (begins : Begins s) (ends : Ends s) (after : ∀ c ∈ pad, isBlank c = true) :
    trim (lead ++ s ++ pad) = s := by
  obtain ⟨front, c, rfl, unblank⟩ := ends
  have last : Begins (front ++ [c]).reverse := ⟨c, front.reverse, by simp, unblank⟩
  have blank : ∀ d ∈ pad.reverse, isBlank d = true := fun d member =>
    after d (List.mem_reverse.mp member)
  have flipped := trimStartLead blank last []
  rw [trim, trimStartLead before begins, trimEnd, List.reverse_append]
  rw [trimStart, List.append_nil, List.append_nil] at flipped
  rw [flipped, List.reverse_reverse]

theorem noBlanks : ∀ c ∈ ([] : List Char), isBlank c = true := eachOf rfl

theorem oneBlank : ∀ c ∈ [' '], isBlank c = true := eachOf rfl

theorem trimWhole {s : List Char} (begins : Begins s) (ends : Ends s) : trim s = s := by
  simpa using trimPadded noBlanks begins ends noBlanks

theorem trimBlanks {s : List Char} (begins : Begins s) (ends : Ends s) :
    trim (' ' :: s ++ [' ']) = s := trimPadded oneBlank begins ends oneBlank

theorem trimLed {s : List Char} (begins : Begins s) (ends : Ends s) : trim (' ' :: s) = s := by
  simpa using trimPadded oneBlank begins ends noBlanks

def spaced (first : List Char) (more : List (List Char)) : List Char :=
  first ++ more.flatMap (' ' :: ·)

theorem blankSpace : isBlank ' ' = true := by decide

theorem spacedEnds {first : List Char} {more : List (List Char)} (head : Ends first)
    (each : ∀ w ∈ more, Ends w) : Ends (spaced first more) := by
  induction more generalizing first with
  | nil => simpa [spaced] using head
  | cons w more ih =>
    have second := endsAppend (s := first ++ [' ']) (each w List.mem_cons_self)
    have rest := ih second fun v member => each v (List.mem_cons_of_mem w member)
    simpa [spaced] using rest

theorem cutAtBlanksWord {w : List Char} (h : ∀ c ∈ w, isBlank c = false) (s : List Char) :
    cutAtBlanks (w ++ ' ' :: s) = some (w, trimStart s) := by
  induction w with
  | nil => rfl
  | cons c w ih =>
    have first := h c List.mem_cons_self
    have rest := ih fun d member => h d (List.mem_cons_of_mem c member)
    simp [cutAtBlanks, first, rest]

theorem wordsWord {w : List Char} (h : ∀ c ∈ w, isBlank c = false) (run s : List Char) :
    wordsFrom run (w ++ s) = wordsFrom (w.reverse ++ run) s := by
  induction w generalizing run with
  | nil => rfl
  | cons c w ih =>
    have first := h c List.mem_cons_self
    simp only [List.cons_append, wordsFrom, first, Bool.false_eq_true, if_false]
    rw [ih fun d member => h d (List.mem_cons_of_mem c member)]
    simp

theorem wordsSpaced {first : List Char} {more : List (List Char)}
    (each : ∀ w ∈ first :: more, w ≠ [] ∧ ∀ c ∈ w, isBlank c = false) :
    words (spaced first more) = first :: more := by
  unfold words
  induction more generalizing first with
  | nil =>
    obtain ⟨nonempty, unblank⟩ := each first List.mem_cons_self
    have whole := wordsWord unblank [] []
    simp only [List.append_nil] at whole
    simp [spaced, whole, wordsFrom, nonempty]
  | cons w more ih =>
    obtain ⟨nonempty, unblank⟩ := each first List.mem_cons_self
    have rest := ih fun v member => each v (List.mem_cons_of_mem first member)
    have front : spaced first (w :: more) = first ++ ' ' :: spaced w more := by
      simp [spaced]
    rw [front, wordsWord unblank, List.append_nil]
    simp [wordsFrom, blankSpace, nonempty, rest]

theorem trimCharsNone {drop : Char → Bool} {s : List Char} (h : ∀ c ∈ s, drop c = false) :
    trimChars drop s = s := by
  have keeps : ∀ t : List Char, (∀ c ∈ t, drop c = false) → t.dropWhile drop = t := by
    intro t all
    cases t with
    | nil => rfl
    | cons c t => simp [all c List.mem_cons_self]
  rw [trimChars, keeps s h, keeps s.reverse fun c member => h c (List.mem_reverse.mp member),
    List.reverse_reverse]

theorem cutCharAt {sep : Char} {s : List Char} (h : sep ∉ s) (t : List Char) :
    cutChar sep (s ++ sep :: t) = (s, some t) := by
  induction s with
  | nil => simp [cutChar]
  | cons c s ih =>
    have other : c ≠ sep := fun same => h (same ▸ List.mem_cons_self)
    have rest := ih fun member => h (List.mem_cons_of_mem c member)
    simp [cutChar, other, rest]

theorem trimStartSpace {s : List Char} (begins : Begins s) : trimStart (' ' :: s) = s := by
  have led := trimStartLead oneBlank begins []
  simpa using led

end Medley.Text
